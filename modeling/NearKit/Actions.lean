import NearKit.SortedMaps
import NearKit.Keys

/-!
# Actions

The actions of a transaction, with the two kinds of delegate action. An action inside
a delegate action is not itself one: the enum takes the payload types of its two
delegate variants as parameters, and a non-delegate action has none to put there.
-/
namespace NearKit
open Borsh

abbrev CryptoHash := ByteArr 32
abbrev NearToken := BitVec 128
abbrev Gas := UInt64
abbrev Nonce := UInt64
abbrev NonceIndex := UInt16

/-! ## Access keys -/

structure GasKeyInfo where
  balance : NearToken
  numNonces : UInt16
  deriving DecidableEq

structure FunctionCallPermission where
  allowance : Option NearToken
  receiverId : AccountId
  methodNames : List String
  deriving DecidableEq

inductive AccessKeyPermission where
  | functionCall (permission : FunctionCallPermission)
  | fullAccess
  | gasKeyFunctionCall (info : GasKeyInfo) (permission : FunctionCallPermission)
  | gasKeyFullAccess (info : GasKeyInfo)
  deriving DecidableEq

structure AccessKey where
  nonce : UInt64
  permission : AccessKeyPermission
  deriving DecidableEq

/-! ## Global contracts and deterministic accounts -/

inductive GlobalContractDeployMode where
  | codeHash | accountId
  deriving DecidableEq, Repr

inductive GlobalContractId where
  | codeHash (hash : ByteArr 32)
  | accountId (id : AccountId)
  deriving DecidableEq

/-- A global contract, as a node reports it. -/
inductive GlobalContractIdentifierView where
  | codeHash (hash : CryptoHash)
  | accountId (accountId : AccountId)
  deriving DecidableEq

structure StateInitV1 where
  code : GlobalContractId
  data : SortedMap Bytes Bytes
  deriving DecidableEq

inductive StateInit where
  | v1 (init : StateInitV1)
  deriving DecidableEq

/-! ## Payloads -/

structure CreateAccountAction where
  deriving DecidableEq

structure DeployContractAction where
  code : Bytes
  deriving DecidableEq

structure FunctionCallAction where
  methodName : String
  args : Bytes
  gas : Gas
  deposit : NearToken
  deriving DecidableEq

structure TransferAction where
  deposit : NearToken
  deriving DecidableEq

structure StakeAction where
  stake : NearToken
  publicKey : PublicKey
  deriving DecidableEq

structure AddKeyAction where
  publicKey : PublicKey
  accessKey : AccessKey
  deriving DecidableEq

structure DeleteKeyAction where
  publicKey : PublicKey
  deriving DecidableEq

structure DeleteAccountAction where
  beneficiaryId : AccountId
  deriving DecidableEq

structure DeployGlobalContractAction where
  code : Bytes
  deployMode : GlobalContractDeployMode
  deriving DecidableEq

structure UseGlobalContractAction where
  contractIdentifier : GlobalContractId
  deriving DecidableEq

structure DeterministicStateInitAction where
  stateInit : StateInit
  deposit : NearToken
  deriving DecidableEq

structure TransferToGasKeyAction where
  publicKey : PublicKey
  deposit : NearToken
  deriving DecidableEq

structure WithdrawFromGasKeyAction where
  publicKey : PublicKey
  amount : NearToken
  deriving DecidableEq

/-! ## Actions and delegate actions -/

/-- The variants of `Action`, over the payloads of `Delegate` and `DelegateV2`. -/
inductive ActionOf (δ δ₂ : Type) where
  | createAccount (action : CreateAccountAction)
  | deployContract (action : DeployContractAction)
  | functionCall (action : FunctionCallAction)
  | transfer (action : TransferAction)
  | stake (action : StakeAction)
  | addKey (action : AddKeyAction)
  | deleteKey (action : DeleteKeyAction)
  | deleteAccount (action : DeleteAccountAction)
  | delegate (action : δ)
  | deployGlobalContract (action : DeployGlobalContractAction)
  | useGlobalContract (action : UseGlobalContractAction)
  | deterministicStateInit (action : DeterministicStateInitAction)
  | transferToGasKey (action : TransferToGasKeyAction)
  | withdrawFromGasKey (action : WithdrawFromGasKeyAction)
  | delegateV2 (action : δ₂)
  deriving DecidableEq

/-- An action that is not a delegate action of any version. -/
abbrev NonDelegateAction := ActionOf Empty Empty

structure DelegateAction where
  senderId : AccountId
  receiverId : AccountId
  actions : List NonDelegateAction
  nonce : UInt64
  maxBlockHeight : UInt64
  publicKey : PublicKey
  deriving DecidableEq

structure SignedDelegateAction where
  delegateAction : DelegateAction
  signature : Signature
  deriving DecidableEq

inductive TransactionNonce where
  | nonce (nonce : Nonce)
  | gasKeyNonce (nonce : Nonce) (nonceIndex : NonceIndex)
  deriving DecidableEq, Repr

structure DelegateActionV2 where
  senderId : AccountId
  receiverId : AccountId
  actions : List NonDelegateAction
  nonce : TransactionNonce
  maxBlockHeight : UInt64
  publicKey : PublicKey
  deriving DecidableEq

inductive VersionedDelegateActionPayload where
  | v2 (action : DelegateActionV2)
  deriving DecidableEq

structure VersionedSignedDelegateAction where
  delegateAction : VersionedDelegateActionPayload
  signature : Signature
  deriving DecidableEq

abbrev Action := ActionOf SignedDelegateAction VersionedSignedDelegateAction

def Action.isDelegate : Action → Bool
  | .delegate _ => true
  | .delegateV2 _ => true
  | _ => false

namespace NonDelegateAction

def inner : NonDelegateAction → Action
  | .createAccount a => .createAccount a
  | .deployContract a => .deployContract a
  | .functionCall a => .functionCall a
  | .transfer a => .transfer a
  | .stake a => .stake a
  | .addKey a => .addKey a
  | .deleteKey a => .deleteKey a
  | .deleteAccount a => .deleteAccount a
  | .deployGlobalContract a => .deployGlobalContract a
  | .useGlobalContract a => .useGlobalContract a
  | .deterministicStateInit a => .deterministicStateInit a
  | .transferToGasKey a => .transferToGasKey a
  | .withdrawFromGasKey a => .withdrawFromGasKey a

def fromAction : Action → Option NonDelegateAction
  | .createAccount a => some (.createAccount a)
  | .deployContract a => some (.deployContract a)
  | .functionCall a => some (.functionCall a)
  | .transfer a => some (.transfer a)
  | .stake a => some (.stake a)
  | .addKey a => some (.addKey a)
  | .deleteKey a => some (.deleteKey a)
  | .deleteAccount a => some (.deleteAccount a)
  | .delegate _ => none
  | .deployGlobalContract a => some (.deployGlobalContract a)
  | .useGlobalContract a => some (.useGlobalContract a)
  | .deterministicStateInit a => some (.deterministicStateInit a)
  | .transferToGasKey a => some (.transferToGasKey a)
  | .withdrawFromGasKey a => some (.withdrawFromGasKey a)
  | .delegateV2 _ => none

theorem fromAction_eq_some {a : Action} {x : NonDelegateAction} :
    fromAction a = some x ↔ x.inner = a := by
  constructor
  · intro h
    cases a <;> cases h <;> rfl
  · rintro rfl
    rcases x with _ | _ | _ | _ | _ | _ | _ | _ | d | _ | _ | _ | _ | _ | d
    all_goals first | exact d.elim | rfl

/-- `from_action` rejects exactly the delegate actions. -/
theorem fromAction_eq_none {a : Action} : fromAction a = none ↔ a.isDelegate = true := by
  cases a <;> simp [fromAction, Action.isDelegate]

end NonDelegateAction
end NearKit
