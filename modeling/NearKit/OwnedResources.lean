import Mathlib.Data.List.Nodup
import Mathlib.Tactic.Common
import NearKit.Processes

/-!
# Owned resources

Requests use resources, end them and start new ones. A process owns what it has started: it
uses only what is alive, ends a resource only after its children, and leaves nothing behind.
-/
namespace NearKit

/-- What a request does to resources. Those it may start are alive if its answer says so. -/
structure Usage (κ : Type) where
  uses : List κ
  ends : List κ
  starts : List κ

namespace Usage
variable {κ : Type} [DecidableEq κ]

/-- The request is in order while these resources are alive. -/
structure InOrder (usage : Usage κ) (parent : κ → Option κ) (alive : List κ) : Prop where
  used : ∀ k ∈ usage.uses, k ∈ alive
  ended : ∀ k ∈ usage.ends, k ∈ alive
  ended_once : usage.ends.Nodup
  childless : ∀ k ∈ usage.ends, ∀ child ∈ alive, parent child ≠ some k
  fresh : ∀ k ∈ usage.starts, k ∉ alive
  started_once : usage.starts.Nodup

instance (usage : Usage κ) (parent : κ → Option κ) (alive : List κ) :
    Decidable (usage.InOrder parent alive) :=
  decidable_of_iff ((∀ k ∈ usage.uses, k ∈ alive) ∧ (∀ k ∈ usage.ends, k ∈ alive) ∧ usage.ends.Nodup ∧
      (∀ k ∈ usage.ends, ∀ child ∈ alive, parent child ≠ some k) ∧
      (∀ k ∈ usage.starts, k ∉ alive) ∧ usage.starts.Nodup)
    ⟨fun ⟨h₁, h₂, h₃, h₄, h₅, h₆⟩ => ⟨h₁, h₂, h₃, h₄, h₅, h₆⟩,
      fun ⟨h₁, h₂, h₃, h₄, h₅, h₆⟩ => ⟨h₁, h₂, h₃, h₄, h₅, h₆⟩⟩

omit [DecidableEq κ] in
theorem inOrder_nil (parent : κ → Option κ) (alive : List κ) :
    (⟨[], [], []⟩ : Usage κ).InOrder parent alive :=
  ⟨by simp, by simp, List.nodup_nil, by simp, by simp, List.nodup_nil⟩

end Usage

/-- The resources behind the requests of a process. -/
structure Ownership (Q : Type) (A : Q → Type) (κ : Type) where
  parent : κ → Option κ
  usage : Q → Usage κ
  started : (q : Q) → A q → List κ
  started_sublist : ∀ q a, (started q a).Sublist (usage q).starts

namespace Ownership
variable {Q : Type} {A : Q → Type} {κ : Type} [DecidableEq κ] (O : Ownership Q A κ)

def next (alive : List κ) (q : Q) (a : A q) : List κ :=
  O.started q a ++ alive.filter (· ∉ (O.usage q).ends)

def monitor : Monitor Q A (List κ) where
  start := []
  allows alive q := (O.usage q).InOrder O.parent alive
  next := O.next

/-- How often a request of the exchanges started a resource. -/
def startedCount (k : κ) (xs : List (Exchange Q A)) : ℕ :=
  (xs.flatMap fun x => O.started x.request x.answer).count k

def endedCount (k : κ) (xs : List (Exchange Q A)) : ℕ :=
  (xs.flatMap fun x => (O.usage x.request).ends).count k

variable {O}

theorem next_nodup {alive : List κ} (h : alive.Nodup) {q : Q} (hq : (O.usage q).InOrder O.parent alive)
    (a : A q) : (O.next alive q a).Nodup := by
  apply List.nodup_append'.mpr
  refine ⟨hq.started_once.sublist (O.started_sublist q a), h.filter _, ?_⟩
  intro k hk hk'
  exact hq.fresh k ((O.started_sublist q a).subset hk) (List.mem_filter.mp hk').1

theorem count_next {alive : List κ} (h : alive.Nodup) {q : Q} (hq : (O.usage q).InOrder O.parent alive)
    (a : A q) (k : κ) :
    (O.next alive q a).count k + (O.usage q).ends.count k = (O.started q a).count k + alive.count k := by
  rw [next, List.count_append, Nat.add_assoc]
  congr 1
  by_cases hk : k ∈ (O.usage q).ends
  · have hfilter : (alive.filter (· ∉ (O.usage q).ends)).count k = 0 :=
      List.count_eq_zero.mpr fun h => by simp [hk] at h
    rw [hfilter, List.count_eq_one_of_mem hq.ended_once hk,
      List.count_eq_one_of_mem h (hq.ended k hk)]
  · rw [List.count_filter (by simpa using hk), List.count_eq_zero.mpr hk]
    rfl

/-- In a run that is in order, what is alive in the end has been started once more often than it
has been ended. -/
theorem count_run {alive : List κ} (h : alive.Nodup) {tr : List (Exchange Q A)}
    (htr : O.monitor.Accepts alive tr) (k : κ) :
    (O.monitor.run alive tr).count k + O.endedCount k tr =
      O.startedCount k tr + alive.count k := by
  induction tr generalizing alive with
  | nil => simp [Monitor.run, endedCount, startedCount]
  | cons x tr ih =>
    have hstep := count_next h htr.1 x.answer k
    have hrest := ih (next_nodup h htr.1 x.answer) htr.2
    have hended : O.endedCount k (x :: tr) = (O.usage x.request).ends.count k + O.endedCount k tr := by
      simp [endedCount]
    have hstarted : O.startedCount k (x :: tr) =
        (O.started x.request x.answer).count k + O.startedCount k tr := by
      simp [startedCount]
    rw [hended, hstarted]
    change (O.monitor.run (O.next alive x.request x.answer) tr).count k + _ = _
    change (O.monitor.run (O.next alive x.request x.answer) tr).count k + _ = _ at hrest
    omega

end Ownership
end NearKit
