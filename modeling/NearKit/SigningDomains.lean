import NearKit.Transactions

/-!
# Signing domains

The five byte strings that are hashed and signed. The first bytes of each name its
kind: a delegate action and a message start with a reserved prefix, a legacy
transaction with a length below 65 and a V1 transaction with the tag and such a length.
-/
namespace NearKit
open Borsh

variable [Crates]

def toLeBytes (n : UInt32) : Bytes := leBytes 4 n.toNat

/-! ## The domain prefixes -/

/-- `DELEGATE_ACTION_PREFIX`, 2^30 + 366. -/
def delegateActionPrefix : UInt32 := 1073742190

/-- `DELEGATE_V2_ACTION_PREFIX`, 2^30 + 611. -/
def delegateV2ActionPrefix : UInt32 := 1073742435

/-- `NEP413_TAG`, 2^31 + 413. -/
def nep413Tag : UInt32 := 2147484061

namespace DelegateAction

def serializeForSigning (d : DelegateAction) : Except IoError Bytes := do
  let prefixBytes := toLeBytes delegateActionPrefix
  let actionBytes ← Format.delegateAction.toVec d
  return prefixBytes ++ actionBytes

def getHash (d : DelegateAction) : Except IoError CryptoHash := hashOf d.serializeForSigning

def sign (d : DelegateAction) (signature : Signature) : SignedDelegateAction := ⟨d, signature⟩

end DelegateAction

namespace VersionedDelegateActionPayload

def serializeForSigning (d : VersionedDelegateActionPayload) : Except IoError Bytes := do
  let prefixBytes := toLeBytes delegateV2ActionPrefix
  let payloadBytes ← Format.versionedDelegateActionPayload.toVec d
  return prefixBytes ++ payloadBytes

def getHash (d : VersionedDelegateActionPayload) : Except IoError CryptoHash :=
  hashOf d.serializeForSigning

end VersionedDelegateActionPayload

/-! ## Messages -/

structure SignMessageParams where
  message : String
  recipient : String
  nonce : ByteArr 32
  callbackUrl : Option String
  state : Option String
  deriving DecidableEq

structure Nep413Payload where
  message : String
  nonce : ByteArr 32
  recipient : String
  callbackUrl : Option String
  deriving DecidableEq

/-- The fields of the parameters that are signed. -/
def SignMessageParams.payload (params : SignMessageParams) : Nep413Payload :=
  ⟨params.message, params.nonce, params.recipient, params.callbackUrl⟩

def Format.nep413Payload : Format Nep413Payload :=
  (string.pair ((array 32).pair (string.pair (option string)))).iso
    ⟨fun x => (x.message, x.nonce, x.recipient, x.callbackUrl), fun (m, n, r, c) => ⟨m, n, r, c⟩,
      fun _ => rfl, fun _ => rfl⟩

namespace Nep413

/-- The bytes that `nep413::serialize_message` hashes. -/
def combined (payload : Nep413Payload) : Except IoError Bytes := do
  let tagBytes := toLeBytes nep413Tag
  let payloadBytes ← Format.nep413Payload.toVec payload
  return tagBytes ++ payloadBytes

def serializeMessage (params : SignMessageParams) : Except IoError CryptoHash :=
  hashOf (combined params.payload)

end Nep413

/-! ## Preimages -/

/-- A value whose preimage is hashed for signing. -/
inductive Signable where
  | transaction (tx : Transaction)
  | transactionV1 (tx : TransactionV1)
  | delegateAction (action : DelegateAction)
  | delegatePayload (payload : VersionedDelegateActionPayload)
  | message (payload : Nep413Payload)
  deriving DecidableEq

inductive SigningDomain where
  | transaction | transactionV1 | delegateAction | delegatePayload | message
  deriving DecidableEq, Repr

namespace Signable

def domain : Signable → SigningDomain
  | transaction _ => .transaction
  | transactionV1 _ => .transactionV1
  | delegateAction _ => .delegateAction
  | delegatePayload _ => .delegatePayload
  | message _ => .message

def preimage : Signable → Except IoError Bytes
  | transaction tx => Format.transaction.toVec tx
  | transactionV1 tx => Format.versionedTransaction.toVec (.v1 tx)
  | delegateAction action => action.serializeForSigning
  | delegatePayload payload => payload.serializeForSigning
  | message payload => Nep413.combined payload

end Signable

namespace SigningDomain

/-- The domain that the first bytes of a preimage name. -/
def ofBytes : Bytes → Option SigningDomain
  | 0x6E :: 0x01 :: 0x00 :: 0x40 :: _ => some delegateAction
  | 0x63 :: 0x02 :: 0x00 :: 0x40 :: _ => some delegatePayload
  | 0x9D :: 0x01 :: 0x00 :: 0x80 :: _ => some message
  | 0x01 :: _ => some transactionV1
  | _ :: 0x00 :: _ => some transaction
  | _ => none

omit [Crates] in
private theorem ofBytes_of_startsWithLength {bs : Bytes} (h : StartsWithLength bs) :
    ofBytes bs = some transaction := by
  obtain ⟨n, rest, h₂, h₆₄, rfl⟩ := h
  have hne := (StartsWithLength.head_ne h₂ h₆₄).2
  generalize UInt8.ofNat n = b at hne
  unfold ofBytes
  split <;> simp_all

end SigningDomain

namespace Signable

/-- A preimage starts with the bytes of its own domain. -/
theorem ofBytes_preimage {x : Signable} {b : Bytes} (h : x.preimage = .ok b) :
    SigningDomain.ofBytes b = some x.domain := by
  cases x with
  | transaction tx =>
    exact SigningDomain.ofBytes_of_startsWithLength (Format.startsWithLength_of_write h)
  | transactionV1 tx =>
    obtain ⟨q, -, rfl⟩ := VersionedTransaction.serialize_v1_eq_ok.mp h
    rfl
  | delegateAction action =>
    obtain ⟨q, -, hq⟩ := bind_eq_ok.mp h
    cases hq
    rfl
  | delegatePayload payload =>
    obtain ⟨q, -, hq⟩ := bind_eq_ok.mp h
    cases hq
    rfl
  | message payload =>
    obtain ⟨q, -, hq⟩ := bind_eq_ok.mp h
    cases hq
    rfl

private theorem prefixed_injective {α : Type} {f : Format α} {tag b : Bytes} {x y : α}
    (hx : (do let p ← f.toVec x; return tag ++ p) = Except.ok b)
    (hy : (do let p ← f.toVec y; return tag ++ p) = Except.ok b) : x = y := by
  obtain ⟨p, hp, hb⟩ := bind_eq_ok.mp hx
  obtain ⟨q, hq, hb'⟩ := bind_eq_ok.mp hy
  have hpq : tag ++ p = tag ++ q := Except.ok.inj (hb.trans hb'.symm)
  rw [← List.append_cancel_left hpq] at hq
  exact f.lawful.toVec_injective hp hq

/-- What is signed determines the value, its kind included. -/
theorem preimage_injective {x y : Signable} {b : Bytes} (hx : x.preimage = .ok b)
    (hy : y.preimage = .ok b) : x = y := by
  have hd : x.domain = y.domain := by
    have h := ofBytes_preimage hx
    rw [ofBytes_preimage hy] at h
    exact (Option.some.inj h).symm
  cases x <;> cases y <;> try cases hd
  case transaction.transaction.refl =>
    exact congrArg _ (Format.transaction.lawful.toVec_injective hx hy)
  case transactionV1.transactionV1.refl =>
    have h := Format.versionedTransaction.lawful.toVec_injective hx hy
    cases h
    rfl
  case delegateAction.delegateAction.refl => exact congrArg _ (prefixed_injective hx hy)
  case delegatePayload.delegatePayload.refl => exact congrArg _ (prefixed_injective hx hy)
  case message.message.refl => exact congrArg _ (prefixed_injective hx hy)

/-- Every hash that is signed is the hash of a preimage, and no two values, of one kind
or of two, share a preimage. -/
theorem signed_preimages_separated :
    (∀ tx, Transaction.getHash tx = hashOf (transaction tx).preimage) ∧
    (∀ tx, VersionedTransaction.getHash (.v1 tx) = hashOf (transactionV1 tx).preimage) ∧
    (∀ action, DelegateAction.getHash action = hashOf (delegateAction action).preimage) ∧
    (∀ payload, VersionedDelegateActionPayload.getHash payload =
      hashOf (delegatePayload payload).preimage) ∧
    (∀ params, Nep413.serializeMessage params = hashOf (message params.payload).preimage) ∧
    (∀ (x y : Signable) (b : Bytes), x.preimage = .ok b → y.preimage = .ok b → x = y) :=
  ⟨fun _ => rfl, fun _ => rfl, fun _ => rfl, fun _ => rfl, fun _ => rfl,
    fun _ _ _ => preimage_injective⟩

omit [Crates] in
theorem signed_preimages_separated_sample : ∃ b,
    @preimage Crates.accepting (transaction .sample) = .ok b ∧
    @preimage Crates.accepting (transactionV1 .sample) ≠ .ok b := by
  let _ := Crates.accepting
  obtain ⟨b, hb⟩ := (Format.transaction.lawful.fits_iff .sample).mp
    (by decide : Format.transaction.Fits .sample)
  refine ⟨b, hb, fun h => ?_⟩
  have heq := signed_preimages_separated.2.2.2.2.2 (transaction .sample) (transactionV1 .sample) b hb h
  cases heq

end Signable
end NearKit
