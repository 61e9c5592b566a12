import NearKit.ActionFormats
import NearKit.NestedActions

/-!
# Decoding actions that may nest

The decoders of the source over the types that allow nesting. They call each other in a
circle, so the depth to which they may go is a parameter. The check of the discriminant
stops the circle after one turn: from two levels on the depth makes no difference, and
what is decoded is what the types without nesting describe.
-/
namespace NearKit
open Borsh

/-! ## Readers of records and variants -/

def readVec {α : Type} (r : Reader α) : Reader (List α) := do
  let n ← Codec.u32.read
  Codec.readMany r n.toNat

private theorem readMany_map {α β : Type} (f : α → β) (r : Reader α) (n : ℕ) :
    Codec.readMany (f <$> r) n = List.map f <$> Codec.readMany r n := by
  induction n with
  | zero => rfl
  | succ n ih => simp [Codec.readMany, ih]

theorem readVec_map {α β : Type} (f : α → β) (r : Reader α) :
    readVec (f <$> r) = List.map f <$> readVec r := by
  simp [readVec, readMany_map]

theorem readTagged_map {α β : Type} (f : α → β) (variant : UInt8 → Reader α) :
    f <$> Codec.readTagged variant = Codec.readTagged fun tag => f <$> variant tag := by
  simp [Codec.readTagged]

variable [Crates]

namespace Format
variable {α β : Type}

theorem pair_read (f : Format α) (g : Format β) :
    (f.pair g).read = (do
      let x ← f.read
      let y ← g.read
      return (x, y)) :=
  rfl

theorem iso_read (f : Format α) (e : β ≃ α) : (f.iso e).read = e.symm <$> f.read := rfl

theorem vec_read (f : Format α) : f.vec.read = readVec f.read := rfl

end Format

namespace ActionOf
variable {δ δ₂ ε ε₂ : Type}

/-- `Action::deserialize_variant`, over the decoders of the two delegate payloads. -/
def readVariant (d : Reader δ) (d₂ : Reader δ₂) (tag : UInt8) : Reader (ActionOf δ δ₂) :=
  match ActionKind.variants.ofU8 tag with
  | some .createAccount => createAccount <$> Format.createAccountAction.read
  | some .deployContract => deployContract <$> Format.deployContractAction.read
  | some .functionCall => functionCall <$> Format.functionCallAction.read
  | some .transfer => transfer <$> Format.transferAction.read
  | some .stake => stake <$> Format.stakeAction.read
  | some .addKey => addKey <$> Format.addKeyAction.read
  | some .deleteKey => deleteKey <$> Format.deleteKeyAction.read
  | some .deleteAccount => deleteAccount <$> Format.deleteAccountAction.read
  | some .delegate => delegate <$> d
  | some .deployGlobalContract => deployGlobalContract <$> Format.deployGlobalContractAction.read
  | some .useGlobalContract => useGlobalContract <$> Format.useGlobalContractAction.read
  | some .deterministicStateInit =>
    deterministicStateInit <$> Format.deterministicStateInitAction.read
  | some .transferToGasKey => transferToGasKey <$> Format.transferToGasKeyAction.read
  | some .withdrawFromGasKey => withdrawFromGasKey <$> Format.withdrawFromGasKeyAction.read
  | some .delegateV2 => delegateV2 <$> d₂
  | none => Reader.fail (unexpectedTag tag)

/-- What the derived decoder makes of each payload, `readVariant` makes of it. -/
theorem readVariant_map (f : δ → ε) (g : δ₂ → ε₂) (d : Format δ) (d₂ : Format δ₂) (tag : UInt8) :
    readVariant (f <$> d.read) (g <$> d₂.read) tag = map f g <$> deserializeVariant d d₂ tag := by
  simp only [readVariant, deserializeVariant, Codec.deserializeVariant]
  cases ActionKind.variants.ofU8 tag with
  | none => rfl
  | some k => cases k <;> simp <;> rfl

/-- No delegate payload is read after another discriminant. -/
theorem readVariant_congr (d : Reader δ) (d₂ : Reader δ₂) (e : Reader δ) (e₂ : Reader δ₂)
    {tag : UInt8} (h : tag ∉ NonDelegateAction.delegateVariantDiscriminants) :
    readVariant d d₂ tag = readVariant e e₂ tag := by
  unfold readVariant
  cases hk : ActionKind.variants.ofU8 tag with
  | none => rfl
  | some k =>
    obtain rfl := Variants.ofU8_eq_some.mp hk
    cases k
    case delegate => exact absurd List.mem_cons_self h
    case delegateV2 => exact absurd (List.mem_cons_of_mem _ List.mem_cons_self) h
    all_goals rfl

end ActionOf

namespace Raw

/-! ## The decoders -/

def DelegateActionOf.read {α : Type} (action : Reader α) : Reader (DelegateActionOf α) := do
  let senderId ← Format.accountId.read
  let receiverId ← Format.accountId.read
  let actions ← readVec action
  let nonce ← Format.u64.read
  let maxBlockHeight ← Format.u64.read
  let publicKey ← Format.publicKey.read
  return ⟨senderId, receiverId, actions, nonce, maxBlockHeight, publicKey⟩

def SignedDelegateActionOf.read {α : Type} (action : Reader α) :
    Reader (SignedDelegateActionOf α) := do
  let delegateAction ← DelegateActionOf.read action
  let signature ← Format.signature.read
  return ⟨delegateAction, signature⟩

def DelegateActionV2Of.read {α : Type} (action : Reader α) : Reader (DelegateActionV2Of α) := do
  let senderId ← Format.accountId.read
  let receiverId ← Format.accountId.read
  let actions ← readVec action
  let nonce ← Format.transactionNonce.read
  let maxBlockHeight ← Format.u64.read
  let publicKey ← Format.publicKey.read
  return ⟨senderId, receiverId, actions, nonce, maxBlockHeight, publicKey⟩

def VersionedDelegateActionPayloadOf.read {α : Type} (action : Reader α) :
    Reader (VersionedDelegateActionPayloadOf α) :=
  Codec.readTagged fun tag =>
    match Variants.single.ofU8 tag with
    | some _ => .v2 <$> DelegateActionV2Of.read action
    | none => Reader.fail (unexpectedTag tag)

def VersionedSignedDelegateActionOf.read {α : Type} (action : Reader α) :
    Reader (VersionedSignedDelegateActionOf α) := do
  let delegateAction ← VersionedDelegateActionPayloadOf.read action
  let signature ← Format.signature.read
  return ⟨delegateAction, signature⟩

/-- `NonDelegateAction::deserialize_reader`, over `Action::deserialize_variant`. -/
def readNonDelegate (variant : UInt8 → Reader Action) : Reader Action :=
  Codec.readTagged fun discriminant =>
    if discriminant ∈ NonDelegateAction.delegateVariantDiscriminants then
      Reader.fail nestedDelegateAction
    else variant discriminant

/-- Where the decoders stop calling each other, for want of depth. -/
def tooDeep : IoError := ⟨.invalidData, "nesting too deep"⟩

/-- `Action::deserialize_variant`, to a depth. -/
def deserializeVariant : ℕ → UInt8 → Reader Action
  | 0, _ => Reader.fail tooDeep
  | depth + 1, tag =>
    let nonDelegate := readNonDelegate (deserializeVariant depth)
    Action.mk <$> ActionOf.readVariant (SignedDelegateActionOf.read nonDelegate)
      (VersionedSignedDelegateActionOf.read nonDelegate) tag

def readAction (depth : ℕ) : Reader Action := Codec.readTagged (deserializeVariant depth)

/-- `Action::deserialize_reader`. A delegate action and what it delegates are two levels. -/
def Action.deserializeReader : Reader Action := readAction 2

def NonDelegateAction.deserializeReader : Reader Action := readNonDelegate (deserializeVariant 2)

def Action.fromSlice (bytes : Bytes) : Except IoError Action :=
  Action.deserializeReader.complete bytes

def NonDelegateAction.fromSlice (bytes : Bytes) : Except IoError Action :=
  NonDelegateAction.deserializeReader.complete bytes

/-! ## The two levels of the typed decoders -/

private theorem delegateActionOf_read :
    DelegateActionOf.read (ofNonDelegate <$> Format.nonDelegateAction.read) =
      ofDelegateAction <$> Format.delegateAction.read := by
  simp [DelegateActionOf.read, readVec_map, Format.delegateAction, Format.iso_read,
    Format.pair_read, Format.vec_read, ofDelegateAction]

private theorem signedDelegateActionOf_read :
    SignedDelegateActionOf.read (ofNonDelegate <$> Format.nonDelegateAction.read) =
      ofSigned <$> Format.signedDelegateAction.read := by
  simp [SignedDelegateActionOf.read, delegateActionOf_read, Format.signedDelegateAction,
    Format.iso_read, Format.pair_read, ofSigned]

private theorem delegateActionV2Of_read :
    DelegateActionV2Of.read (ofNonDelegate <$> Format.nonDelegateAction.read) =
      ofDelegateActionV2 <$> Format.delegateActionV2.read := by
  simp [DelegateActionV2Of.read, readVec_map, Format.delegateActionV2, Format.iso_read,
    Format.pair_read, Format.vec_read, ofDelegateActionV2]

private theorem versionedDelegateActionPayloadOf_read :
    VersionedDelegateActionPayloadOf.read (ofNonDelegate <$> Format.nonDelegateAction.read) =
      ofPayload <$> Format.versionedDelegateActionPayload.read := by
  have henum : Format.versionedDelegateActionPayload.read =
      Codec.readTagged fun tag =>
        (fun x : Σ _ : Unit, NearKit.DelegateActionV2 => .v2 x.2) <$>
          Codec.deserializeVariant Variants.single (fun _ => Format.delegateActionV2.toCodec) tag :=
    readTagged_map _ _
  rw [henum, readTagged_map, VersionedDelegateActionPayloadOf.read, delegateActionV2Of_read]
  congr 1
  funext tag
  unfold Codec.deserializeVariant
  cases Variants.single.ofU8 tag with
  | none => rfl
  | some _ => simp [ofPayload]

private theorem versionedSignedDelegateActionOf_read :
    VersionedSignedDelegateActionOf.read (ofNonDelegate <$> Format.nonDelegateAction.read) =
      ofVersioned <$> Format.versionedSignedDelegateAction.read := by
  simp [VersionedSignedDelegateActionOf.read, versionedDelegateActionPayloadOf_read,
    Format.versionedSignedDelegateAction, Format.iso_read, Format.pair_read, ofVersioned]

theorem actionOf_read {δ δ₂ : Type} (d : Format δ) (d₂ : Format δ₂) :
    (ActionOf.format d d₂).read = Codec.readTagged (ActionOf.deserializeVariant d d₂) :=
  readTagged_map _ _

/-- Without a delegate payload to read, one level is enough. -/
theorem readNonDelegate_eq (depth : ℕ) :
    readNonDelegate (deserializeVariant (depth + 1)) =
      ofNonDelegate <$> Format.nonDelegateAction.read := by
  rw [Format.nonDelegateAction, actionOf_read, readTagged_map, readNonDelegate]
  congr 1
  funext tag
  by_cases h : tag ∈ NonDelegateAction.delegateVariantDiscriminants
  · rw [if_pos h]
    rcases List.mem_pair.mp h with rfl | rfl <;> rfl
  · rw [if_neg h, deserializeVariant, ActionOf.readVariant_congr _ _
      (Empty.elim <$> Format.nested.read) (Empty.elim <$> Format.nested.read) h,
      ActionOf.readVariant_map]
    simp only [Functor.map_map]
    rfl

/-- Two levels are enough for every action. -/
theorem readAction_eq (depth : ℕ) :
    readAction (depth + 2) = ofAction <$> Format.action.read := by
  rw [Format.action, actionOf_read, readTagged_map, readAction]
  congr 1
  funext tag
  rw [deserializeVariant, readNonDelegate_eq, signedDelegateActionOf_read,
    versionedSignedDelegateActionOf_read, ActionOf.readVariant_map]
  simp only [Functor.map_map]
  rfl

/-! ## What the decoders return -/

private theorem isDelegate_of_deserializeVariant {depth : ℕ} {tag : UInt8} {bs rest : Bytes}
    {a : Action} (h : deserializeVariant depth tag bs = .ok (a, rest)) :
    a.isDelegate = true ↔ tag ∈ NonDelegateAction.delegateVariantDiscriminants := by
  cases depth with
  | zero => cases h
  | succ depth =>
    obtain ⟨variant, hv, rfl⟩ := Reader.map_eq_ok.mp h
    unfold ActionOf.readVariant at hv
    cases hk : ActionKind.variants.ofU8 tag with
    | none =>
      simp only [hk] at hv
      cases hv
    | some k =>
      simp only [hk] at hv
      obtain rfl := Variants.ofU8_eq_some.mp hk
      cases k <;> obtain ⟨x, -, rfl⟩ := Reader.map_eq_ok.mp hv <;>
        simp [Action.isDelegate, NonDelegateAction.delegateVariantDiscriminants,
          ActionKind.variants]

/-- The decoder of non-delegate actions accepts what the decoder of actions accepts,
delegate actions excepted, and leaves the same bytes. -/
theorem deserializeReader_eq_ok {bs rest : Bytes} {a : Action} :
    NonDelegateAction.deserializeReader bs = .ok (a, rest) ↔
      Action.deserializeReader bs = .ok (a, rest) ∧ a.isDelegate = false := by
  refine Codec.readTagged_eq_ok.trans ?_
  refine Iff.trans ?_ (and_congr_left fun _ => Codec.readTagged_eq_ok.symm)
  constructor
  · rintro ⟨tag, mid, rfl, h⟩
    split at h
    · cases h
    · next htag =>
      have hd : ¬ a.isDelegate = true := fun hd => htag ((isDelegate_of_deserializeVariant h).mp hd)
      exact ⟨⟨tag, mid, rfl, h⟩, Bool.eq_false_iff.mpr hd⟩
  · rintro ⟨⟨tag, mid, rfl, h⟩, hd⟩
    have htag : tag ∉ NonDelegateAction.delegateVariantDiscriminants := by
      intro htag
      rw [(isDelegate_of_deserializeVariant h).mpr htag] at hd
      cases hd
    exact ⟨tag, mid, rfl, by rwa [if_neg htag]⟩

theorem fromSlice_eq_ok {bs : Bytes} {a : Action} :
    NonDelegateAction.fromSlice bs = .ok a ↔
      Action.fromSlice bs = .ok a ∧ a.isDelegate = false := by
  unfold NonDelegateAction.fromSlice Action.fromSlice
  rw [Reader.complete_eq_ok, Reader.complete_eq_ok, deserializeReader_eq_ok]

/-- A decoded action is one whose type excludes nesting. -/
theorem exists_ofAction {bs rest : Bytes} {a : Action}
    (h : Action.deserializeReader bs = .ok (a, rest)) :
    ∃ x, a = ofAction x ∧ Format.action.read bs = .ok (x, rest) := by
  rw [Action.deserializeReader, readAction_eq 0] at h
  obtain ⟨x, hx, rfl⟩ := Reader.map_eq_ok.mp h
  exact ⟨x, rfl, hx⟩

theorem noNestedDelegate_of_read {bs rest : Bytes} {a : Action}
    (h : Action.deserializeReader bs = .ok (a, rest)) : a.NoNestedDelegate := by
  obtain ⟨x, rfl, -⟩ := exists_ofAction h
  exact noNestedDelegate_ofAction x

end Raw
end NearKit
