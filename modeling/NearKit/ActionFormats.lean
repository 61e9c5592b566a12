import NearKit.WireFormats
import NearKit.Actions

/-!
# The wire format of actions

Every derived codec of the action format, fields and variants in declaration order.
`NonDelegateAction` shares the discriminants of `Action` and refuses the two delegate
ones after reading them.
-/
namespace NearKit
open Borsh

variable [Crates]

namespace Format

/-- Read with `read_exact`, unlike a borsh array. -/
def cryptoHash : Format CryptoHash :=
  simple (Codec.rawBytes unexpectedEof 32) (Codec.lawful_rawBytes _ _)

/-! ## Access keys -/

def gasKeyInfo : Format GasKeyInfo :=
  (u128.pair u16).iso
    ⟨fun x => (x.balance, x.numNonces), fun (b, n) => ⟨b, n⟩, fun _ => rfl, fun _ => rfl⟩

def functionCallPermission : Format FunctionCallPermission :=
  ((option u128).pair (accountId.pair (vec string))).iso
    ⟨fun x => (x.allowance, x.receiverId, x.methodNames), fun (a, r, m) => ⟨a, r, m⟩,
      fun _ => rfl, fun _ => rfl⟩

inductive PermissionKind where
  | functionCall | fullAccess | gasKeyFunctionCall | gasKeyFullAccess

def PermissionKind.variants : Variants PermissionKind where
  all := [.functionCall, .fullAccess, .gasKeyFunctionCall, .gasKeyFullAccess]
  toU8
    | .functionCall => 0
    | .fullAccess => 1
    | .gasKeyFunctionCall => 2
    | .gasKeyFullAccess => 3
  mem_all i := by cases i <;> simp
  positions := rfl

abbrev PermissionKind.Payload : PermissionKind → Type
  | functionCall => FunctionCallPermission
  | fullAccess => Unit
  | gasKeyFunctionCall => GasKeyInfo × FunctionCallPermission
  | gasKeyFullAccess => GasKeyInfo

def accessKeyPermission : Format AccessKeyPermission :=
  (enum (P := PermissionKind.Payload) PermissionKind.variants fun
    | .functionCall => functionCallPermission
    | .fullAccess => unit
    | .gasKeyFunctionCall => gasKeyInfo.pair functionCallPermission
    | .gasKeyFullAccess => gasKeyInfo).iso
    { toFun := fun
        | .functionCall p => ⟨.functionCall, p⟩
        | .fullAccess => ⟨.fullAccess, ()⟩
        | .gasKeyFunctionCall i p => ⟨.gasKeyFunctionCall, i, p⟩
        | .gasKeyFullAccess i => ⟨.gasKeyFullAccess, i⟩
      invFun := fun
        | ⟨.functionCall, p⟩ => .functionCall p
        | ⟨.fullAccess, _⟩ => .fullAccess
        | ⟨.gasKeyFunctionCall, i, p⟩ => .gasKeyFunctionCall i p
        | ⟨.gasKeyFullAccess, i⟩ => .gasKeyFullAccess i
      left_inv := fun x => by cases x <;> rfl
      right_inv := fun ⟨k, x⟩ => by cases k <;> rfl }

def accessKey : Format AccessKey :=
  (u64.pair accessKeyPermission).iso
    ⟨fun x => (x.nonce, x.permission), fun (n, p) => ⟨n, p⟩, fun _ => rfl, fun _ => rfl⟩

/-! ## Global contracts and deterministic accounts -/

def globalContractDeployMode : Format GlobalContractDeployMode :=
  plainEnum
    { all := [.codeHash, .accountId]
      toU8 := fun
        | .codeHash => 0
        | .accountId => 1
      mem_all := fun i => by cases i <;> simp
      positions := rfl }

abbrev ContractIdPayload : GlobalContractDeployMode → Type
  | .codeHash => ByteArr 32
  | .accountId => AccountId

def globalContractId : Format GlobalContractId :=
  (enum (P := ContractIdPayload)
    { all := [.codeHash, .accountId]
      toU8 := fun
        | .codeHash => 0
        | .accountId => 1
      mem_all := fun i => by cases i <;> simp
      positions := rfl }
    fun
    | .codeHash => array 32
    | .accountId => accountId).iso
    { toFun := fun
        | .codeHash h => ⟨.codeHash, h⟩
        | .accountId id => ⟨.accountId, id⟩
      invFun := fun
        | ⟨.codeHash, h⟩ => .codeHash h
        | ⟨.accountId, id⟩ => .accountId id
      left_inv := fun x => by cases x <;> rfl
      right_inv := fun ⟨k, x⟩ => by cases k <;> rfl }

def stateInitV1 : Format StateInitV1 :=
  (globalContractId.pair stateMap).iso
    ⟨fun x => (x.code, x.data), fun (c, d) => ⟨c, d⟩, fun _ => rfl, fun _ => rfl⟩

def stateInit : Format StateInit :=
  (enum (P := fun _ => StateInitV1) Variants.single fun _ => stateInitV1).iso
    ⟨fun | .v1 x => ⟨(), x⟩, fun ⟨_, x⟩ => .v1 x, fun _ => rfl, fun _ => rfl⟩

/-! ## Payloads -/

def createAccountAction : Format CreateAccountAction :=
  unit.iso ⟨fun _ => (), fun _ => {}, fun _ => rfl, fun _ => rfl⟩

def deployContractAction : Format DeployContractAction :=
  bytes.iso ⟨fun x => x.code, fun c => ⟨c⟩, fun _ => rfl, fun _ => rfl⟩

def functionCallAction : Format FunctionCallAction :=
  (string.pair (bytes.pair (u64.pair u128))).iso
    ⟨fun x => (x.methodName, x.args, x.gas, x.deposit), fun (m, a, g, d) => ⟨m, a, g, d⟩,
      fun _ => rfl, fun _ => rfl⟩

def transferAction : Format TransferAction :=
  u128.iso ⟨fun x => x.deposit, fun d => ⟨d⟩, fun _ => rfl, fun _ => rfl⟩

def stakeAction : Format StakeAction :=
  (u128.pair publicKey).iso
    ⟨fun x => (x.stake, x.publicKey), fun (s, k) => ⟨s, k⟩, fun _ => rfl, fun _ => rfl⟩

def addKeyAction : Format AddKeyAction :=
  (publicKey.pair accessKey).iso
    ⟨fun x => (x.publicKey, x.accessKey), fun (k, a) => ⟨k, a⟩, fun _ => rfl, fun _ => rfl⟩

def deleteKeyAction : Format DeleteKeyAction :=
  publicKey.iso ⟨fun x => x.publicKey, fun k => ⟨k⟩, fun _ => rfl, fun _ => rfl⟩

def deleteAccountAction : Format DeleteAccountAction :=
  accountId.iso ⟨fun x => x.beneficiaryId, fun b => ⟨b⟩, fun _ => rfl, fun _ => rfl⟩

def deployGlobalContractAction : Format DeployGlobalContractAction :=
  (bytes.pair globalContractDeployMode).iso
    ⟨fun x => (x.code, x.deployMode), fun (c, m) => ⟨c, m⟩, fun _ => rfl, fun _ => rfl⟩

def useGlobalContractAction : Format UseGlobalContractAction :=
  globalContractId.iso
    ⟨fun x => x.contractIdentifier, fun i => ⟨i⟩, fun _ => rfl, fun _ => rfl⟩

def deterministicStateInitAction : Format DeterministicStateInitAction :=
  (stateInit.pair u128).iso
    ⟨fun x => (x.stateInit, x.deposit), fun (s, d) => ⟨s, d⟩, fun _ => rfl, fun _ => rfl⟩

def transferToGasKeyAction : Format TransferToGasKeyAction :=
  (publicKey.pair u128).iso
    ⟨fun x => (x.publicKey, x.deposit), fun (k, d) => ⟨k, d⟩, fun _ => rfl, fun _ => rfl⟩

def withdrawFromGasKeyAction : Format WithdrawFromGasKeyAction :=
  (publicKey.pair u128).iso
    ⟨fun x => (x.publicKey, x.amount), fun (k, a) => ⟨k, a⟩, fun _ => rfl, fun _ => rfl⟩

end Format

/-! ## Actions -/

inductive ActionKind where
  | createAccount | deployContract | functionCall | transfer | stake | addKey | deleteKey
  | deleteAccount | delegate | deployGlobalContract | useGlobalContract
  | deterministicStateInit | transferToGasKey | withdrawFromGasKey | delegateV2
  deriving DecidableEq, Repr

namespace ActionKind

def variants : Variants ActionKind where
  all := [.createAccount, .deployContract, .functionCall, .transfer, .stake, .addKey, .deleteKey,
    .deleteAccount, .delegate, .deployGlobalContract, .useGlobalContract,
    .deterministicStateInit, .transferToGasKey, .withdrawFromGasKey, .delegateV2]
  toU8
    | .createAccount => 0
    | .deployContract => 1
    | .functionCall => 2
    | .transfer => 3
    | .stake => 4
    | .addKey => 5
    | .deleteKey => 6
    | .deleteAccount => 7
    | .delegate => 8
    | .deployGlobalContract => 9
    | .useGlobalContract => 10
    | .deterministicStateInit => 11
    | .transferToGasKey => 12
    | .withdrawFromGasKey => 13
    | .delegateV2 => 14
  mem_all i := by cases i <;> simp
  positions := rfl

abbrev Payload (δ δ₂ : Type) : ActionKind → Type
  | createAccount => CreateAccountAction
  | deployContract => DeployContractAction
  | functionCall => FunctionCallAction
  | transfer => TransferAction
  | stake => StakeAction
  | addKey => AddKeyAction
  | deleteKey => DeleteKeyAction
  | deleteAccount => DeleteAccountAction
  | delegate => δ
  | deployGlobalContract => DeployGlobalContractAction
  | useGlobalContract => UseGlobalContractAction
  | deterministicStateInit => DeterministicStateInitAction
  | transferToGasKey => TransferToGasKeyAction
  | withdrawFromGasKey => WithdrawFromGasKeyAction
  | delegateV2 => δ₂

end ActionKind

namespace ActionOf
variable {δ δ₂ : Type}

def variantFormat (d : Format δ) (d₂ : Format δ₂) :
    (k : ActionKind) → Format (ActionKind.Payload δ δ₂ k)
  | .createAccount => .createAccountAction
  | .deployContract => .deployContractAction
  | .functionCall => .functionCallAction
  | .transfer => .transferAction
  | .stake => .stakeAction
  | .addKey => .addKeyAction
  | .deleteKey => .deleteKeyAction
  | .deleteAccount => .deleteAccountAction
  | .delegate => d
  | .deployGlobalContract => .deployGlobalContractAction
  | .useGlobalContract => .useGlobalContractAction
  | .deterministicStateInit => .deterministicStateInitAction
  | .transferToGasKey => .transferToGasKeyAction
  | .withdrawFromGasKey => .withdrawFromGasKeyAction
  | .delegateV2 => d₂

/-- An action is its variant and that variant's payload. -/
def equivPayload : ActionOf δ δ₂ ≃ Σ k, ActionKind.Payload δ δ₂ k where
  toFun
    | createAccount a => ⟨.createAccount, a⟩
    | deployContract a => ⟨.deployContract, a⟩
    | functionCall a => ⟨.functionCall, a⟩
    | transfer a => ⟨.transfer, a⟩
    | stake a => ⟨.stake, a⟩
    | addKey a => ⟨.addKey, a⟩
    | deleteKey a => ⟨.deleteKey, a⟩
    | deleteAccount a => ⟨.deleteAccount, a⟩
    | delegate a => ⟨.delegate, a⟩
    | deployGlobalContract a => ⟨.deployGlobalContract, a⟩
    | useGlobalContract a => ⟨.useGlobalContract, a⟩
    | deterministicStateInit a => ⟨.deterministicStateInit, a⟩
    | transferToGasKey a => ⟨.transferToGasKey, a⟩
    | withdrawFromGasKey a => ⟨.withdrawFromGasKey, a⟩
    | delegateV2 a => ⟨.delegateV2, a⟩
  invFun
    | ⟨.createAccount, a⟩ => createAccount a
    | ⟨.deployContract, a⟩ => deployContract a
    | ⟨.functionCall, a⟩ => functionCall a
    | ⟨.transfer, a⟩ => transfer a
    | ⟨.stake, a⟩ => stake a
    | ⟨.addKey, a⟩ => addKey a
    | ⟨.deleteKey, a⟩ => deleteKey a
    | ⟨.deleteAccount, a⟩ => deleteAccount a
    | ⟨.delegate, a⟩ => delegate a
    | ⟨.deployGlobalContract, a⟩ => deployGlobalContract a
    | ⟨.useGlobalContract, a⟩ => useGlobalContract a
    | ⟨.deterministicStateInit, a⟩ => deterministicStateInit a
    | ⟨.transferToGasKey, a⟩ => transferToGasKey a
    | ⟨.withdrawFromGasKey, a⟩ => withdrawFromGasKey a
    | ⟨.delegateV2, a⟩ => delegateV2 a
  left_inv x := by cases x <;> rfl
  right_inv := fun ⟨k, x⟩ => by cases k <;> rfl

def format (d : Format δ) (d₂ : Format δ₂) : Format (ActionOf δ δ₂) :=
  (Format.enum ActionKind.variants (variantFormat d d₂)).iso equivPayload

def deserializeVariant (d : Format δ) (d₂ : Format δ₂) (tag : UInt8) : Reader (ActionOf δ δ₂) :=
  equivPayload.symm <$> Codec.deserializeVariant ActionKind.variants
    (fun k => (variantFormat d d₂ k).toCodec) tag

end ActionOf

/-! ## Delegate actions -/

def nestedDelegateAction : IoError :=
  ⟨.invalidInput, "a delegate action must not contain a nested delegate action"⟩

namespace Format

/-- No payload follows the discriminant of a nested delegate action. -/
def nested : Format Empty where
  write := Empty.elim
  read := Reader.fail nestedDelegateAction
  parts := Empty.elim
  lawful :=
    { fits_iff := fun x => x.elim
      read_write := fun {x} => x.elim
      valid_of_read := fun {_ x} => x.elim
      write_read := fun {_ x} => x.elim
      prefixFree := fun {x} => x.elim }

def nonDelegateAction : Format NonDelegateAction := ActionOf.format nested nested

def delegateAction : Format DelegateAction :=
  (accountId.pair (accountId.pair ((vec nonDelegateAction).pair
    (u64.pair (u64.pair publicKey))))).iso
    ⟨fun x => (x.senderId, x.receiverId, x.actions, x.nonce, x.maxBlockHeight, x.publicKey),
      fun (s, r, a, n, m, k) => ⟨s, r, a, n, m, k⟩, fun _ => rfl, fun _ => rfl⟩

def signedDelegateAction : Format SignedDelegateAction :=
  (delegateAction.pair signature).iso
    ⟨fun x => (x.delegateAction, x.signature), fun (d, s) => ⟨d, s⟩, fun _ => rfl, fun _ => rfl⟩

inductive NonceKind where
  | nonce | gasKeyNonce

abbrev NonceKind.Payload : NonceKind → Type
  | nonce => Nonce
  | gasKeyNonce => Nonce × NonceIndex

def transactionNonce : Format TransactionNonce :=
  (enum (P := NonceKind.Payload)
    { all := [.nonce, .gasKeyNonce]
      toU8 := fun
        | .nonce => 0
        | .gasKeyNonce => 1
      mem_all := fun i => by cases i <;> simp
      positions := rfl }
    fun
    | .nonce => u64
    | .gasKeyNonce => u64.pair u16).iso
    { toFun := fun
        | .nonce n => ⟨.nonce, n⟩
        | .gasKeyNonce n i => ⟨.gasKeyNonce, n, i⟩
      invFun := fun
        | ⟨.nonce, n⟩ => .nonce n
        | ⟨.gasKeyNonce, n, i⟩ => .gasKeyNonce n i
      left_inv := fun x => by cases x <;> rfl
      right_inv := fun ⟨k, x⟩ => by cases k <;> rfl }

def delegateActionV2 : Format DelegateActionV2 :=
  (accountId.pair (accountId.pair ((vec nonDelegateAction).pair
    (transactionNonce.pair (u64.pair publicKey))))).iso
    ⟨fun x => (x.senderId, x.receiverId, x.actions, x.nonce, x.maxBlockHeight, x.publicKey),
      fun (s, r, a, n, m, k) => ⟨s, r, a, n, m, k⟩, fun _ => rfl, fun _ => rfl⟩

def versionedDelegateActionPayload : Format VersionedDelegateActionPayload :=
  (enum (P := fun _ => DelegateActionV2) Variants.single fun _ => delegateActionV2).iso
    ⟨fun | .v2 x => ⟨(), x⟩, fun ⟨_, x⟩ => .v2 x, fun _ => rfl, fun _ => rfl⟩

def versionedSignedDelegateAction : Format VersionedSignedDelegateAction :=
  (versionedDelegateActionPayload.pair signature).iso
    ⟨fun x => (x.delegateAction, x.signature), fun (d, s) => ⟨d, s⟩, fun _ => rfl, fun _ => rfl⟩

def action : Format Action := ActionOf.format signedDelegateAction versionedSignedDelegateAction

end Format

namespace NonDelegateAction

def delegateVariantDiscriminants : List UInt8 := [8, 14]

/-- The decoder of the source: reject the delegate discriminants, then decode the
variant of `Action`. -/
def deserializeReader : Reader Action := do
  let discriminant ← Codec.u8.read
  if discriminant ∈ delegateVariantDiscriminants then Reader.fail nestedDelegateAction
  else ActionOf.deserializeVariant .signedDelegateAction .versionedSignedDelegateAction discriminant

private theorem inner_variant {k : ActionKind}
    (hk : ActionKind.variants.toU8 k ∉ delegateVariantDiscriminants) :
    inner <$> ActionOf.deserializeVariant Format.nested Format.nested
      (ActionKind.variants.toU8 k) =
    ActionOf.deserializeVariant .signedDelegateAction .versionedSignedDelegateAction
      (ActionKind.variants.toU8 k) := by
  simp only [ActionOf.deserializeVariant, Codec.deserializeVariant,
    Variants.ofU8_eq_some.mpr rfl, Functor.map_map]
  cases k
  case delegate => exact absurd (by decide : (8 : UInt8) ∈ delegateVariantDiscriminants) hk
  case delegateV2 => exact absurd (by decide : (14 : UInt8) ∈ delegateVariantDiscriminants) hk
  all_goals rfl

/-- Reading a non-delegate action is the source's decoder. -/
theorem read_eq_deserializeReader :
    inner <$> Format.nonDelegateAction.read = deserializeReader := by
  funext bs
  cases bs with
  | nil => rfl
  | cons tag bs =>
    have hread : Format.nonDelegateAction.read (tag :: bs) =
        ActionOf.deserializeVariant Format.nested Format.nested tag bs :=
      Reader.map_congr _ (Codec.readTagged_cons _ tag bs)
    refine (Reader.map_congr inner hread).trans ?_
    symm
    refine (Reader.bind_of_ok (Codec.u8_read_cons tag bs)).trans ?_
    by_cases hd : tag ∈ delegateVariantDiscriminants
    · rw [if_pos hd]
      rcases List.mem_pair.mp hd with rfl | rfl <;> rfl
    · rw [if_neg hd]
      cases hk : ActionKind.variants.ofU8 tag with
      | none =>
        simp only [ActionOf.deserializeVariant, Codec.deserializeVariant, hk]
        rfl
      | some k =>
        obtain rfl := Variants.ofU8_eq_some.mp hk
        rw [inner_variant hd]

end NonDelegateAction

end NearKit
