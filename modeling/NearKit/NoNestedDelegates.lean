import NearKit.ActionViews
import NearKit.KeyCustody
import NearKit.NestedDecoding

/-!
# No delegate action inside a delegate action

Over the types that allow nesting: whatever way the source offers to make an action, no
delegate action is inside a delegate action, at any depth.
-/
namespace NearKit
open Borsh

/-- What `TransactionBuilder::delegate` makes of the builder's actions. -/
def Raw.delegateActions (actions : List Raw.Action) : Except Error (List Raw.Action) :=
  if actions.isEmpty then
    .error (.invalidTransaction "Delegate action requires at least one action")
  else if actions.any Raw.Action.isDelegate then
    .error (.invalidTransaction "Delegate actions cannot contain nested signed delegate actions")
  else .ok (actions.filterMap Raw.Action.fromAction)

namespace Raw

private theorem isDelegate_of_delegateActions {actions inner : List Action}
    (h : delegateActions actions = .ok inner) : ∀ a ∈ inner, a.isDelegate = false := by
  unfold delegateActions at h
  split at h
  · cases h
  · split at h
    · cases h
    · cases h
      intro a ha
      obtain ⟨x, -, hx⟩ := List.mem_filterMap.mp ha
      obtain ⟨rfl, hd⟩ := Action.fromAction_eq_some.mp hx
      exact hd

theorem delegateActions_ofAction {actions : List NearKit.Action} (hne : actions ≠ [])
    (hnested : ∀ a ∈ actions, a.isDelegate = false) :
    delegateActions (actions.map ofAction) =
      .ok ((actions.filterMap NonDelegateAction.fromAction).map ofNonDelegate) := by
  have hempty : ¬ (actions.map ofAction).isEmpty = true := by simpa using hne
  have hany : ¬ (actions.map ofAction).any Action.isDelegate = true := by simpa using hnested
  rw [delegateActions, if_neg hempty, if_neg hany, List.filterMap_map, List.map_filterMap]
  apply congrArg Except.ok
  apply List.filterMap_congr
  intro a _
  exact fromAction_ofAction a

variable [Crates]

/-- The ways to make a `NonDelegateAction`, whose field is private. -/
inductive MadeNonDelegate : Action → Prop where
  | decoded {bytes rest : Bytes} {a : Action}
      (h : NonDelegateAction.deserializeReader bytes = .ok (a, rest)) : MadeNonDelegate a
  | fromAction {action a : Action} (h : action.fromAction = some a) : MadeNonDelegate a
  | tryFrom {action a : Action} (h : action.tryFrom = .ok a) : MadeNonDelegate a
  | view {view : ActionView} {a : Action} (h : view.toNonDelegate = .ok a) : MadeNonDelegate a

/-- The ways to make an action. -/
inductive Obtained : Action → Prop where
  | decoded {bytes rest : Bytes} {a : Action}
      (h : Action.deserializeReader bytes = .ok (a, rest)) : Obtained a
  | intoInner {a : Action} (h : MadeNonDelegate a) : Obtained a
  | delegated {actions : List Action} {d : SignedDelegateAction}
      (h : delegateActions actions = .ok d.delegateAction.actions) : Obtained (.delegate d)
  | view {view : ActionView} {a : Action} (h : view.toAction = .ok a) : Obtained a
  /-- The fields of the delegate actions are public. -/
  | assembled {a : Action} (h : ∀ c ∈ a.children, MadeNonDelegate c) : Obtained a

private theorem MadeNonDelegate.isDelegate {a : Action} (h : MadeNonDelegate a) :
    a.isDelegate = false := by
  cases h with
  | decoded h => exact (deserializeReader_eq_ok.mp h).2
  | fromAction h =>
    obtain ⟨rfl, hd⟩ := Action.fromAction_eq_some.mp h
    exact hd
  | tryFrom h =>
    obtain ⟨rfl, hd⟩ := Action.fromAction_eq_some.mp (Action.tryFrom_eq_ok.mp h)
    exact hd
  | view h => exact ActionView.isDelegate_of_toNonDelegate h

private theorem Obtained.noNestedDelegate {a : Action} (h : Obtained a) : a.NoNestedDelegate := by
  cases h with
  | decoded h => exact noNestedDelegate_of_read h
  | intoInner h => exact Action.noNestedDelegate_of_not_isDelegate h.isDelegate
  | delegated h => exact Action.noNestedDelegate_of_children (isDelegate_of_delegateActions h)
  | view h => exact Action.noNestedDelegate_of_children (ActionView.children_of_toAction h)
  | assembled h => exact Action.noNestedDelegate_of_children fun c hc => (h c hc).isDelegate

/-- What `TransactionBuilder::delegate` returns is made of the builder's actions. -/
theorem obtained_of_completes {σ : Type} {H : σ → (q : Request) → Answer q → σ → Prop} {s s' : σ}
    {b : TransactionBuilder} {options : DelegateOptions} {tr : List (Exchange Request Answer)}
    {d : DelegateResult} (h : Completes H s (b.delegate options) tr s' (.ok d)) :
    delegateActions (b.actions.map ofAction) =
      .ok (ofSigned d.signedDelegateAction).delegateAction.actions := by
  obtain ⟨xs, hpost⟩ := h.exists_post (b.delegate_custody options)
  have hd := hpost d rfl
  rw [delegateActions_ofAction hd.nonempty hd.notNested, ← hd.actions]
  rfl

/-- The decoder of non-delegate actions accepts exactly the non-delegate actions that the
decoder of actions accepts; the depth of the decoders makes no difference. No action that
is obtained in any way, and so none that `delegate` returns, has a delegate action inside. -/
theorem no_nested_delegates :
    (∀ depth, readAction (depth + 2) = Action.deserializeReader ∧
      readNonDelegate (deserializeVariant (depth + 1)) = NonDelegateAction.deserializeReader) ∧
    (∀ bytes rest a, NonDelegateAction.deserializeReader bytes = .ok (a, rest) ↔
      Action.deserializeReader bytes = .ok (a, rest) ∧ a.isDelegate = false) ∧
    (∀ bytes a, NonDelegateAction.fromSlice bytes = .ok a ↔
      Action.fromSlice bytes = .ok a ∧ a.isDelegate = false) ∧
    (∀ a, Obtained a → a.NoNestedDelegate) ∧
    (∀ (σ : Type) (H : σ → (q : Request) → Answer q → σ → Prop) (s s' : σ) (b : TransactionBuilder)
      (options : DelegateOptions) (tr : List (Exchange Request Answer)) (d : DelegateResult),
      Completes H s (b.delegate options) tr s' (.ok d) →
        Obtained (.delegate (ofSigned d.signedDelegateAction))) := by
  refine ⟨fun depth => ⟨?_, ?_⟩, fun _ _ _ => deserializeReader_eq_ok, fun _ _ => fromSlice_eq_ok,
    fun a h => h.noNestedDelegate, ?_⟩
  · rw [readAction_eq, Action.deserializeReader, readAction_eq 0]
  · rw [readNonDelegate_eq, NonDelegateAction.deserializeReader, readNonDelegate_eq 1]
  · intro σ H s s' b options tr d h
    exact .delegated (obtained_of_completes h)

omit [Crates] in
theorem no_nested_delegates_sample :
    (∃ a, @NonDelegateAction.fromSlice Crates.accepting (3 :: List.replicate 16 0) = .ok a ∧
      a.isDelegate = false) ∧
    (Action.delegate ⟨⟨.alice, .bob, [.mk (.transfer ⟨1⟩)], 6, 100, .sample 0⟩,
      .zero⟩).NoNestedDelegate := by
  let _ := Crates.accepting
  obtain ⟨-, -, hslice, hobtained, -⟩ := no_nested_delegates
  constructor
  · have hread : Action.fromSlice (3 :: List.replicate 16 0) = .ok (.mk (.transfer ⟨0⟩)) := rfl
    exact ⟨_, (hslice _ _).mpr ⟨hread, rfl⟩, rfl⟩
  · exact hobtained _ (@Obtained.delegated _ [.mk (.transfer ⟨1⟩)] _ rfl)

end Raw
end NearKit
