import NearKit.SigningDomains

/-!
# Round trips of the transport types

Every format decodes what it encodes, encodes injectively, and encodes back what it
accepted unless a state map is in it. The text forms go through base64.
-/
namespace NearKit
open Borsh

/-- `DecodeError` of a signed delegate action. -/
inductive DecodeError where
  | base64
  | borsh (error : IoError)
  deriving DecidableEq

variable [Crates]

namespace SignedDelegateAction

def toBytes (d : SignedDelegateAction) : Except IoError Bytes :=
  Format.signedDelegateAction.toVec d

def toBase64 (d : SignedDelegateAction) : Except IoError String := Base64.encode <$> d.toBytes

def fromBytes (bytes : Bytes) : Except IoError SignedDelegateAction :=
  Format.signedDelegateAction.fromSlice bytes

def fromBase64 (s : String) : Except DecodeError SignedDelegateAction :=
  match Base64.decode s with
  | some bytes => (fromBytes bytes).mapError .borsh
  | none => .error .base64

end SignedDelegateAction

namespace VersionedSignedDelegateAction

def toBytes (d : VersionedSignedDelegateAction) : Except IoError Bytes :=
  Format.versionedSignedDelegateAction.toVec d

def toBase64 (d : VersionedSignedDelegateAction) : Except IoError String :=
  Base64.encode <$> d.toBytes

def fromBytes (bytes : Bytes) : Except IoError VersionedSignedDelegateAction :=
  Format.versionedSignedDelegateAction.fromSlice bytes

def fromBase64 (s : String) : Except DecodeError VersionedSignedDelegateAction :=
  match Base64.decode s with
  | some bytes => (fromBytes bytes).mapError .borsh
  | none => .error .base64

end VersionedSignedDelegateAction

/-! ## State maps -/

/-- Whether an action, or an action inside a delegate action, initializes a state. -/
def NonDelegateAction.hasStateInit : NonDelegateAction → Bool
  | .deterministicStateInit _ => true
  | _ => false

def DelegateAction.hasStateInit (d : DelegateAction) : Bool :=
  d.actions.any NonDelegateAction.hasStateInit

def VersionedDelegateActionPayload.hasStateInit : VersionedDelegateActionPayload → Bool
  | v2 d => d.actions.any NonDelegateAction.hasStateInit

def Action.hasStateInit : Action → Bool
  | .deterministicStateInit _ => true
  | .delegate d => d.delegateAction.hasStateInit
  | .delegateV2 d => d.delegateAction.hasStateInit
  | _ => false

def Transaction.hasStateInit (tx : Transaction) : Bool := tx.actions.any Action.hasStateInit

namespace Format

/-- A format of values without a state map. -/
def NoStateMap {α : Type} (f : Format α) : Prop := ∀ x, Part.stateMap ∉ f.parts x

namespace NoStateMap
variable {α β : Type}

theorem simple {c : Codec α} {h : c.Lawful (fun _ => True) (fun _ => True) (fun _ => True)} :
    (Format.simple c h).NoStateMap :=
  fun _ => List.not_mem_nil

theorem accountId : Format.accountId.NoStateMap := fun _ => by simp [Format.accountId]

theorem publicKey : Format.publicKey.NoStateMap := fun _ => by simp [Format.publicKey]

theorem bytes : Format.bytes.NoStateMap := fun _ => by simp [Format.bytes]

theorem string : Format.string.NoStateMap := fun _ => by simp [Format.string]

theorem pair {f : Format α} {g : Format β} (hf : f.NoStateMap) (hg : g.NoStateMap) :
    (f.pair g).NoStateMap :=
  fun x h => (List.mem_append.mp h).elim (hf x.1) (hg x.2)

theorem iso {f : Format α} (hf : f.NoStateMap) (e : β ≃ α) : (f.iso e).NoStateMap :=
  fun x => hf (e x)

theorem vec {f : Format α} (hf : f.NoStateMap) : f.vec.NoStateMap := by
  intro xs h
  rcases List.mem_cons.mp h with h | h
  · cases h
  · obtain ⟨x, -, hx⟩ := List.mem_flatMap.mp h
    exact hf x hx

theorem option {f : Format α} (hf : f.NoStateMap) : f.option.NoStateMap := by
  intro o h
  obtain ⟨x, -, hx⟩ := List.mem_flatMap.mp h
  exact hf x hx

theorem enum {ι : Type} {β : ι → Type} {v : Variants ι} {f : ∀ i, Format (β i)}
    (hf : ∀ i, (f i).NoStateMap) : (Format.enum v f).NoStateMap :=
  fun x => hf x.1 x.2

theorem accessKey : Format.accessKey.NoStateMap := by
  have hinfo : Format.gasKeyInfo.NoStateMap := (simple.pair simple).iso _
  have hperm : Format.functionCallPermission.NoStateMap :=
    (simple.option.pair (accountId.pair string.vec)).iso _
  refine (simple.pair ((enum fun k => ?_).iso _)).iso _
  cases k with
  | functionCall => exact hperm
  | fullAccess => exact simple
  | gasKeyFunctionCall => exact hinfo.pair hperm
  | gasKeyFullAccess => exact hinfo

theorem globalContractId : Format.globalContractId.NoStateMap := by
  refine (enum fun k => ?_).iso _
  cases k with
  | codeHash => exact simple
  | accountId => exact accountId

end NoStateMap

/-- Only a state-init payload and the delegate payloads can hold a state map. -/
theorem noStateMap_variant {δ δ₂ : Type} (d : Format δ) (d₂ : Format δ₂) {k : ActionKind}
    (hk : k ∉ [ActionKind.delegate, .deterministicStateInit, .delegateV2]) :
    (ActionOf.variantFormat d d₂ k).NoStateMap := by
  have hkey := NoStateMap.publicKey
  cases k with
  | createAccount => exact NoStateMap.simple.iso _
  | deployContract => exact NoStateMap.bytes.iso _
  | functionCall =>
    exact (NoStateMap.string.pair
      (NoStateMap.bytes.pair (NoStateMap.simple.pair NoStateMap.simple))).iso _
  | transfer => exact NoStateMap.simple.iso _
  | stake => exact (NoStateMap.simple.pair hkey).iso _
  | addKey => exact (hkey.pair NoStateMap.accessKey).iso _
  | deleteKey => exact hkey.iso _
  | deleteAccount => exact NoStateMap.accountId.iso _
  | deployGlobalContract =>
    exact (NoStateMap.bytes.pair ((NoStateMap.enum fun _ => NoStateMap.simple).iso _)).iso _
  | useGlobalContract => exact NoStateMap.globalContractId.iso _
  | transferToGasKey => exact (hkey.pair NoStateMap.simple).iso _
  | withdrawFromGasKey => exact (hkey.pair NoStateMap.simple).iso _
  | delegate | deterministicStateInit | delegateV2 => simp at hk

theorem stateMap_not_mem {δ δ₂ : Type} {d : Format δ} {d₂ : Format δ₂} {a : ActionOf δ δ₂}
    (hk : (ActionOf.equivPayload a).1 ∉
      [ActionKind.delegate, .deterministicStateInit, .delegateV2]) :
    Part.stateMap ∉ (ActionOf.format d d₂).parts a :=
  noStateMap_variant d d₂ hk _

theorem not_mem_nonDelegateAction {a : NonDelegateAction} (h : a.hasStateInit = false) :
    Part.stateMap ∉ nonDelegateAction.parts a := by
  cases a
  case deterministicStateInit => cases h
  case delegate a => exact a.elim
  case delegateV2 a => exact a.elim
  all_goals exact stateMap_not_mem (by simp [ActionOf.equivPayload])

theorem not_mem_pair {α β : Type} {f : Format α} {g : Format β} {x : α × β}
    (hf : Part.stateMap ∉ f.parts x.1) (hg : Part.stateMap ∉ g.parts x.2) :
    Part.stateMap ∉ (f.pair g).parts x :=
  fun h => (List.mem_append.mp h).elim hf hg

theorem not_mem_vec {α : Type} {f : Format α} {xs : List α} {stateInit : α → Bool}
    (hf : ∀ x, stateInit x = false → Part.stateMap ∉ f.parts x)
    (h : xs.any stateInit = false) : Part.stateMap ∉ f.vec.parts xs := by
  intro hm
  rcases List.mem_cons.mp hm with hm | hm
  · cases hm
  · obtain ⟨x, hx, hm⟩ := List.mem_flatMap.mp hm
    exact hf x (by simpa using List.any_eq_false.mp h x hx) hm

theorem not_mem_delegateAction {d : DelegateAction} (h : d.hasStateInit = false) :
    Part.stateMap ∉ delegateAction.parts d :=
  not_mem_pair (NoStateMap.accountId _) (not_mem_pair (NoStateMap.accountId _)
    (not_mem_pair (not_mem_vec (fun _ => not_mem_nonDelegateAction) h)
      (NoStateMap.simple.pair (NoStateMap.simple.pair NoStateMap.publicKey) _)))

theorem noStateMap_transactionNonce : transactionNonce.NoStateMap := by
  refine (NoStateMap.enum fun k => ?_).iso _
  cases k with
  | nonce => exact NoStateMap.simple
  | gasKeyNonce => exact NoStateMap.simple.pair NoStateMap.simple

theorem not_mem_delegateActionPayload {d : VersionedDelegateActionPayload}
    (h : d.hasStateInit = false) : Part.stateMap ∉ versionedDelegateActionPayload.parts d := by
  obtain ⟨d⟩ := d
  exact not_mem_pair (NoStateMap.accountId _) (not_mem_pair (NoStateMap.accountId _)
    (not_mem_pair (not_mem_vec (fun _ => not_mem_nonDelegateAction) h)
      (noStateMap_transactionNonce.pair (NoStateMap.simple.pair NoStateMap.publicKey) _)))

theorem not_mem_action {a : Action} (h : a.hasStateInit = false) :
    Part.stateMap ∉ action.parts a := by
  cases a
  case deterministicStateInit => cases h
  case delegate d => exact not_mem_pair (not_mem_delegateAction h) (NoStateMap.simple _)
  case delegateV2 d => exact not_mem_pair (not_mem_delegateActionPayload h) (NoStateMap.simple _)
  all_goals exact stateMap_not_mem (by simp [ActionOf.equivPayload])

theorem not_mem_transaction {tx : Transaction} (h : tx.hasStateInit = false) :
    Part.stateMap ∉ transaction.parts tx :=
  not_mem_pair (NoStateMap.accountId _) (not_mem_pair (NoStateMap.publicKey _)
    (not_mem_pair (NoStateMap.simple _) (not_mem_pair (NoStateMap.accountId _)
      (not_mem_pair (NoStateMap.simple _) (not_mem_vec (fun _ => not_mem_action) h)))))

/-! ## The round trip -/

/-- What a caller may rely on when a value travels as bytes. The predicate `stateInit`
tells the values whose bytes are borsh's own choice. -/
structure RoundTrip {α : Type} (f : Format α) (stateInit : α → Bool) : Prop where
  encodes : ∀ x, f.Fits x ↔ ∃ b, f.toVec x = .ok b
  decodes : ∀ x b, f.Valid x → f.toVec x = .ok b → f.fromSlice b = .ok x
  injective : ∀ x y b, f.toVec x = .ok b → f.toVec y = .ok b → x = y
  canonical : ∀ b x, f.fromSlice b = .ok x → stateInit x = false → f.toVec x = .ok b

theorem roundTrip {α : Type} {f : Format α} {stateInit : α → Bool}
    (h : ∀ x, stateInit x = false → Part.stateMap ∉ f.parts x) : f.RoundTrip stateInit where
  encodes := f.lawful.fits_iff
  decodes _ _ hv hb := f.lawful.fromSlice_toVec hv hb
  injective _ _ _ hx hy := f.lawful.toVec_injective hx hy
  canonical _ x hb hx := f.lawful.toVec_fromSlice hb (plain_of_no_stateMap (h x hx))

/-- Text decoding inverts text encoding wherever byte decoding inverts byte encoding. -/
theorem fromBase64_toBase64 {α ε : Type} {f : Format α} {x : α} {s : String}
    {fromBytes : Bytes → Except ε α} {e : ε} (hv : f.Valid x)
    (hfrom : ∀ b, f.fromSlice b = .ok x → fromBytes b = .ok x)
    (hs : Base64.encode <$> f.toVec x = .ok s) :
    (match Base64.decode s with
      | some bytes => fromBytes bytes
      | none => .error e) = .ok x := by
  cases hb : f.toVec x with
  | error e => simp [hb] at hs
  | ok b =>
    simp only [hb] at hs
    cases hs
    simp only [Base64.decode_encode]
    exact hfrom b (f.lawful.fromSlice_toVec hv hb)

end Format

/-- Every action, signed transaction and signed delegate action survives its encodings,
as bytes and as text, and is encoded injectively; accepted bytes without a state init
are the encoding of their value. -/
theorem transport_round_trips :
    Format.action.RoundTrip Action.hasStateInit ∧
    Format.signedTransaction.RoundTrip (fun tx => tx.transaction.hasStateInit) ∧
    Format.signedDelegateAction.RoundTrip (fun d => d.delegateAction.hasStateInit) ∧
    Format.versionedSignedDelegateAction.RoundTrip (fun d => d.delegateAction.hasStateInit) ∧
    (∀ tx s, Format.signedTransaction.Valid tx → tx.toBase64 = .ok s →
      SignedTransaction.fromBase64 s = .ok tx) ∧
    (∀ d s, Format.signedDelegateAction.Valid d → d.toBase64 = .ok s →
      SignedDelegateAction.fromBase64 s = .ok d) ∧
    (∀ d s, Format.versionedSignedDelegateAction.Valid d → d.toBase64 = .ok s →
      VersionedSignedDelegateAction.fromBase64 s = .ok d) := by
  refine ⟨Format.roundTrip fun _ => Format.not_mem_action,
    Format.roundTrip fun _ h => Format.not_mem_pair (Format.not_mem_transaction h)
      (Format.NoStateMap.simple _),
    Format.roundTrip fun _ h => Format.not_mem_pair (Format.not_mem_delegateAction h)
      (Format.NoStateMap.simple _),
    Format.roundTrip fun _ h => Format.not_mem_pair (Format.not_mem_delegateActionPayload h)
      (Format.NoStateMap.simple _), ?_, ?_, ?_⟩
  · intro tx s hv hs
    refine Format.fromBase64_toBase64 hv (fun b hb => ?_) hs
    simp [SignedTransaction.fromBytes, hb, Except.mapError]
  · intro d s hv hs
    refine Format.fromBase64_toBase64 hv (fun b hb => ?_) hs
    simp [SignedDelegateAction.fromBytes, hb, Except.mapError]
  · intro d s hv hs
    refine Format.fromBase64_toBase64 hv (fun b hb => ?_) hs
    simp [VersionedSignedDelegateAction.fromBytes, hb, Except.mapError]

omit [Crates] in
theorem transport_round_trips_sample : ∃ s,
    @SignedTransaction.toBase64 Crates.accepting ⟨.sample, .zero⟩ = .ok s ∧
    @SignedTransaction.fromBase64 Crates.accepting s = .ok ⟨.sample, .zero⟩ := by
  let _ := Crates.accepting
  obtain ⟨-, hround, -, -, htext, -, -⟩ := transport_round_trips
  obtain ⟨b, hb⟩ := (hround.encodes ⟨.sample, .zero⟩).mp (by decide)
  have hs : SignedTransaction.toBase64 ⟨.sample, .zero⟩ = .ok (Base64.encode b) := by
    simp [SignedTransaction.toBase64, SignedTransaction.toBytes, hb]
  exact ⟨_, hs, htext _ _ (by decide) hs⟩

end NearKit
