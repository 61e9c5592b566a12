import NearKit.Errors

/-!
# Actions that may nest

In the source a non-delegate action is a wrapped action, and it is the constructors of
the wrapper that keep delegate actions out. Here the wrapper is left off, so that an
action may hold delegate actions inside a delegate action to any depth: what the types
no longer exclude is left to the functions of the source.
-/
namespace NearKit
open Borsh

namespace ActionOf
variable {δ δ₂ ε ε₂ : Type}

/-- The action with the payloads of its two delegate variants replaced. -/
def map (f : δ → ε) (g : δ₂ → ε₂) : ActionOf δ δ₂ → ActionOf ε ε₂
  | createAccount a => createAccount a
  | deployContract a => deployContract a
  | functionCall a => functionCall a
  | transfer a => transfer a
  | stake a => stake a
  | addKey a => addKey a
  | deleteKey a => deleteKey a
  | deleteAccount a => deleteAccount a
  | delegate a => delegate (f a)
  | deployGlobalContract a => deployGlobalContract a
  | useGlobalContract a => useGlobalContract a
  | deterministicStateInit a => deterministicStateInit a
  | transferToGasKey a => transferToGasKey a
  | withdrawFromGasKey a => withdrawFromGasKey a
  | delegateV2 a => delegateV2 (g a)

end ActionOf

namespace Raw

/-! ## The types -/

/-- `DelegateAction`, over the type of the actions it delegates. -/
structure DelegateActionOf (α : Type) where
  senderId : AccountId
  receiverId : AccountId
  actions : List α
  nonce : UInt64
  maxBlockHeight : UInt64
  publicKey : PublicKey

structure SignedDelegateActionOf (α : Type) where
  delegateAction : DelegateActionOf α
  signature : Signature

structure DelegateActionV2Of (α : Type) where
  senderId : AccountId
  receiverId : AccountId
  actions : List α
  nonce : TransactionNonce
  maxBlockHeight : UInt64
  publicKey : PublicKey

inductive VersionedDelegateActionPayloadOf (α : Type) where
  | v2 (action : DelegateActionV2Of α)

structure VersionedSignedDelegateActionOf (α : Type) where
  delegateAction : VersionedDelegateActionPayloadOf α
  signature : Signature

/-- An action, and also the inside of a `NonDelegateAction`. -/
inductive Action where
  | mk (variant : ActionOf (SignedDelegateActionOf Action) (VersionedSignedDelegateActionOf Action))

abbrev DelegateAction := DelegateActionOf Action
abbrev SignedDelegateAction := SignedDelegateActionOf Action
abbrev DelegateActionV2 := DelegateActionV2Of Action
abbrev VersionedDelegateActionPayload := VersionedDelegateActionPayloadOf Action
abbrev VersionedSignedDelegateAction := VersionedSignedDelegateActionOf Action

namespace Action

def delegate (action : SignedDelegateAction) : Action := .mk (.delegate action)

def delegateV2 (action : VersionedSignedDelegateAction) : Action := .mk (.delegateV2 action)

def isDelegate : Action → Bool
  | .mk (.delegate _) => true
  | .mk (.delegateV2 _) => true
  | _ => false

def fromAction (action : Action) : Option Action :=
  if action.isDelegate then none else some action

def tryFrom (action : Action) : Except Unit Action :=
  match action.fromAction with
  | some inner => .ok inner
  | none => .error ()

theorem fromAction_eq_some {a x : Action} :
    a.fromAction = some x ↔ x = a ∧ a.isDelegate = false := by
  cases h : a.isDelegate <;> simp [fromAction, h, eq_comm]

theorem tryFrom_eq_ok {a x : Action} : a.tryFrom = .ok x ↔ a.fromAction = some x := by
  cases h : a.fromAction <;> simp [tryFrom, h]

/-! ## Nesting -/

/-- The actions directly inside a delegate action. -/
def children : Action → List Action
  | .mk (.delegate signed) => signed.delegateAction.actions
  | .mk (.delegateV2 ⟨.v2 action, _⟩) => action.actions
  | _ => []

/-- The first action is inside the second, at some depth. -/
def Inside : Action → Action → Prop := Relation.TransGen fun x a => x ∈ a.children

/-- No delegate action is inside the action, at any depth. -/
def NoNestedDelegate (a : Action) : Prop := ∀ x : Action, x.Inside a → x.isDelegate = false

private theorem children_of_not_isDelegate {a : Action} (h : a.isDelegate = false) :
    a.children = [] := by
  obtain ⟨variant⟩ := a
  cases variant <;> first | rfl | cases h

theorem Inside.exists_child {x a : Action} (h : x.Inside a) :
    ∃ c ∈ a.children, x = c ∨ x.Inside c := by
  induction h with
  | single h => exact ⟨x, h, .inl rfl⟩
  | @tail b c hxb hbc ih => exact ⟨b, hbc, .inr hxb⟩

theorem not_inside_of_not_isDelegate {x a : Action} (h : a.isDelegate = false) : ¬ x.Inside a := by
  intro hx
  obtain ⟨c, hc, -⟩ := hx.exists_child
  rw [children_of_not_isDelegate h] at hc
  cases hc

theorem noNestedDelegate_of_children {a : Action} (h : ∀ c ∈ a.children, c.isDelegate = false) :
    a.NoNestedDelegate := by
  intro x hx
  obtain ⟨c, hc, rfl | hxc⟩ := hx.exists_child
  · exact h x hc
  · exact absurd hxc (not_inside_of_not_isDelegate (h c hc))

theorem noNestedDelegate_of_not_isDelegate {a : Action} (h : a.isDelegate = false) :
    a.NoNestedDelegate :=
  fun _ hx => absurd hx (not_inside_of_not_isDelegate h)

/-- A nested delegate action is something the types allow. -/
example (d : DelegateAction) (s : Signature) :
    ¬ (delegate ⟨{ d with actions := [delegate ⟨d, s⟩] }, s⟩).NoNestedDelegate := by
  intro h
  have hinside := h (delegate ⟨d, s⟩) (.single List.mem_cons_self)
  cases hinside

end Action

/-! ## Actions whose types exclude nesting -/

def ofNonDelegate (a : NonDelegateAction) : Action := .mk (a.map Empty.elim Empty.elim)

def ofDelegateAction (d : NearKit.DelegateAction) : DelegateAction :=
  ⟨d.senderId, d.receiverId, d.actions.map ofNonDelegate, d.nonce, d.maxBlockHeight, d.publicKey⟩

def ofSigned (d : NearKit.SignedDelegateAction) : SignedDelegateAction :=
  ⟨ofDelegateAction d.delegateAction, d.signature⟩

def ofDelegateActionV2 (d : NearKit.DelegateActionV2) : DelegateActionV2 :=
  ⟨d.senderId, d.receiverId, d.actions.map ofNonDelegate, d.nonce, d.maxBlockHeight, d.publicKey⟩

def ofPayload : NearKit.VersionedDelegateActionPayload → VersionedDelegateActionPayload
  | .v2 d => .v2 (ofDelegateActionV2 d)

def ofVersioned (d : NearKit.VersionedSignedDelegateAction) : VersionedSignedDelegateAction :=
  ⟨ofPayload d.delegateAction, d.signature⟩

def ofAction (a : NearKit.Action) : Action := .mk (a.map ofSigned ofVersioned)

theorem ofNonDelegate_isDelegate (a : NonDelegateAction) :
    (ofNonDelegate a).isDelegate = false := by
  rcases a with _ | _ | _ | _ | _ | _ | _ | _ | d | _ | _ | _ | _ | _ | d
  all_goals first | exact d.elim | rfl

@[simp] theorem ofAction_isDelegate (a : NearKit.Action) :
    (ofAction a).isDelegate = a.isDelegate := by
  cases a <;> rfl

@[simp] theorem ofAction_inner (a : NonDelegateAction) : ofAction a.inner = ofNonDelegate a := by
  rcases a with _ | _ | _ | _ | _ | _ | _ | _ | d | _ | _ | _ | _ | _ | d
  all_goals first | exact d.elim | rfl

theorem fromAction_ofAction (a : NearKit.Action) :
    (ofAction a).fromAction = (NonDelegateAction.fromAction a).map ofNonDelegate := by
  cases h : NonDelegateAction.fromAction a with
  | none =>
    have hd : (ofAction a).isDelegate = true := by
      rw [ofAction_isDelegate, NonDelegateAction.fromAction_eq_none.mp h]
    simp [Action.fromAction, hd]
  | some x =>
    obtain rfl := NonDelegateAction.fromAction_eq_some.mp h
    rw [ofAction_inner, Option.map_some]
    exact Action.fromAction_eq_some.mpr ⟨rfl, ofNonDelegate_isDelegate x⟩

theorem noNestedDelegate_ofAction (a : NearKit.Action) : (ofAction a).NoNestedDelegate := by
  apply Action.noNestedDelegate_of_children
  intro c hc
  cases a with
  | delegate d =>
    obtain ⟨x, -, rfl⟩ := List.mem_map.mp hc
    exact ofNonDelegate_isDelegate x
  | delegateV2 d =>
    obtain ⟨⟨d⟩, signature⟩ := d
    obtain ⟨x, -, rfl⟩ := List.mem_map.mp hc
    exact ofNonDelegate_isDelegate x
  | _ => cases hc

theorem exists_ofNonDelegate {a : Action} (h : a.isDelegate = false) : ∃ x, ofNonDelegate x = a := by
  obtain ⟨variant⟩ := a
  cases variant with
  | createAccount a => exact ⟨.createAccount a, rfl⟩
  | deployContract a => exact ⟨.deployContract a, rfl⟩
  | functionCall a => exact ⟨.functionCall a, rfl⟩
  | transfer a => exact ⟨.transfer a, rfl⟩
  | stake a => exact ⟨.stake a, rfl⟩
  | addKey a => exact ⟨.addKey a, rfl⟩
  | deleteKey a => exact ⟨.deleteKey a, rfl⟩
  | deleteAccount a => exact ⟨.deleteAccount a, rfl⟩
  | delegate a => cases h
  | deployGlobalContract a => exact ⟨.deployGlobalContract a, rfl⟩
  | useGlobalContract a => exact ⟨.useGlobalContract a, rfl⟩
  | deterministicStateInit a => exact ⟨.deterministicStateInit a, rfl⟩
  | transferToGasKey a => exact ⟨.transferToGasKey a, rfl⟩
  | withdrawFromGasKey a => exact ⟨.withdrawFromGasKey a, rfl⟩
  | delegateV2 a => cases h

private theorem exists_map_ofNonDelegate {actions : List Action}
    (h : ∀ a ∈ actions, a.isDelegate = false) : ∃ xs, List.map ofNonDelegate xs = actions := by
  induction actions with
  | nil => exact ⟨[], rfl⟩
  | cons a actions ih =>
    obtain ⟨ha, hactions⟩ := List.forall_mem_cons.mp h
    obtain ⟨x, rfl⟩ := exists_ofNonDelegate ha
    obtain ⟨xs, rfl⟩ := ih hactions
    exact ⟨x :: xs, rfl⟩

/-- The types without nesting hold exactly the actions with no delegate action inside. -/
theorem noNestedDelegate_iff {a : Action} : a.NoNestedDelegate ↔ ∃ x, ofAction x = a := by
  constructor
  · intro h
    have hchildren : ∀ c ∈ a.children, c.isDelegate = false := fun c hc => h c (.single hc)
    cases hd : a.isDelegate with
    | false =>
      obtain ⟨x, rfl⟩ := exists_ofNonDelegate hd
      exact ⟨x.inner, ofAction_inner x⟩
    | true =>
      obtain ⟨variant⟩ := a
      cases variant with
      | delegate d =>
        obtain ⟨⟨senderId, receiverId, actions, nonce, maxBlockHeight, publicKey⟩, signature⟩ := d
        obtain ⟨xs, rfl⟩ := exists_map_ofNonDelegate hchildren
        exact ⟨.delegate ⟨⟨senderId, receiverId, xs, nonce, maxBlockHeight, publicKey⟩, signature⟩,
          rfl⟩
      | delegateV2 d =>
        obtain ⟨⟨senderId, receiverId, actions, nonce, maxBlockHeight, publicKey⟩, signature⟩ := d
        obtain ⟨xs, rfl⟩ := exists_map_ofNonDelegate hchildren
        exact ⟨.delegateV2 ⟨.v2 ⟨senderId, receiverId, xs, nonce, maxBlockHeight, publicKey⟩,
          signature⟩, rfl⟩
      | _ => cases hd
  · rintro ⟨x, rfl⟩
    exact noNestedDelegate_ofAction x

end Raw
end NearKit
