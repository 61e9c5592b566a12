import Mathlib.Logic.Function.Basic
import Mathlib.Data.List.Nodup
import Mathlib.Tactic.Common

/-!
# Tickets

A dispenser issues tickets, each of them once, to any number of holders. A holder spends
the ticket it holds or drops it, and then holds none. No ticket is spent twice.
-/
namespace Tickets

/-- The tickets issued so far, the one each holder holds and those spent, newest first. -/
structure State (ι τ : Type*) where
  issued : List τ
  held : ι → Option τ
  spent : List τ

variable {ι τ : Type*} [DecidableEq ι]

inductive Step (s s' : State ι τ) : Prop where
  | take (i : ι) (x : τ) (fresh : x ∉ s.issued) (issued : s'.issued = x :: s.issued)
      (held : s'.held = Function.update s.held i (some x)) (spent : s'.spent = s.spent)
  | spend (i : ι) (x : τ) (holds : s.held i = some x) (issued : s'.issued = s.issued)
      (held : s'.held = Function.update s.held i none) (spent : s'.spent = x :: s.spent)
  | drop (i : ι) (issued : s'.issued = s.issued)
      (held : s'.held = Function.update s.held i none) (spent : s'.spent = s.spent)
  | skip (issued : s'.issued = s.issued) (held : s'.held = s.held) (spent : s'.spent = s.spent)

/-- Tickets are spent at most once, and a held ticket is issued, unspent and held by one. -/
structure Sound (s : State ι τ) : Prop where
  nodup : s.spent.Nodup
  issued_of_spent : ∀ x ∈ s.spent, x ∈ s.issued
  issued_of_held : ∀ i x, s.held i = some x → x ∈ s.issued
  unspent_of_held : ∀ i x, s.held i = some x → x ∉ s.spent
  held_injective : ∀ i j x, s.held i = some x → s.held j = some x → i = j

omit [DecidableEq ι] in
theorem sound_init : Sound (⟨[], fun _ => none, []⟩ : State ι τ) where
  nodup := List.nodup_nil
  issued_of_spent _ h := nomatch h
  issued_of_held _ _ h := nomatch h
  unspent_of_held _ _ h := nomatch h
  held_injective _ _ _ h := nomatch h

/-- What is held after a holder let go was held before, by another one. -/
theorem held_of_update_none {held : ι → Option τ} {i j : ι} {x : τ}
    (h : Function.update held i none j = some x) : j ≠ i ∧ held j = some x := by
  by_cases hj : j = i
  · rw [hj, Function.update_self] at h
    cases h
  · rw [Function.update_of_ne hj] at h
    exact ⟨hj, h⟩

theorem held_of_update_some {held : ι → Option τ} {i j : ι} {x y : τ}
    (h : Function.update held i (some x) j = some y) : (j = i ∧ y = x) ∨ held j = some y := by
  by_cases hj : j = i
  · rw [hj, Function.update_self] at h
    cases h
    exact .inl ⟨hj, rfl⟩
  · rw [Function.update_of_ne hj] at h
    exact .inr h

theorem Sound.step {s s' : State ι τ} (h : Sound s) (hs : Step s s') : Sound s' := by
  cases hs with
  | take i x fresh issued held spent =>
    have hspent : x ∉ s.spent := fun hx => fresh (h.issued_of_spent x hx)
    constructor
    · rw [spent]
      exact h.nodup
    · intro y hy
      rw [spent] at hy
      rw [issued]
      exact List.mem_cons_of_mem x (h.issued_of_spent y hy)
    · intro j y hy
      rw [held] at hy
      rw [issued]
      rcases held_of_update_some hy with ⟨-, rfl⟩ | hy
      · exact List.mem_cons_self
      · exact List.mem_cons_of_mem x (h.issued_of_held j y hy)
    · intro j y hy
      rw [held] at hy
      rw [spent]
      rcases held_of_update_some hy with ⟨-, rfl⟩ | hy
      · exact hspent
      · exact h.unspent_of_held j y hy
    · intro j k y hj hk
      rw [held] at hj hk
      rcases held_of_update_some hj with ⟨hji, hyx⟩ | hj'
      · rcases held_of_update_some hk with ⟨hki, -⟩ | hk'
        · exact hji.trans hki.symm
        · exact absurd (hyx ▸ h.issued_of_held k y hk') fresh
      · rcases held_of_update_some hk with ⟨-, hyx⟩ | hk'
        · exact absurd (hyx ▸ h.issued_of_held j y hj') fresh
        · exact h.held_injective j k y hj' hk'
  | spend i x holds issued held spent =>
    constructor
    · rw [spent]
      exact List.nodup_cons.mpr ⟨h.unspent_of_held i x holds, h.nodup⟩
    · intro y hy
      rw [spent] at hy
      rw [issued]
      rcases List.mem_cons.mp hy with rfl | hy
      · exact h.issued_of_held i y holds
      · exact h.issued_of_spent y hy
    · intro j y hy
      rw [held] at hy
      rw [issued]
      exact h.issued_of_held j y (held_of_update_none hy).2
    · intro j y hy hmem
      rw [held] at hy
      rw [spent] at hmem
      obtain ⟨hj, hy⟩ := held_of_update_none hy
      rcases List.mem_cons.mp hmem with rfl | hmem
      · exact hj (h.held_injective j i y hy holds)
      · exact h.unspent_of_held j y hy hmem
    · intro j k y hj hk
      rw [held] at hj hk
      exact h.held_injective j k y (held_of_update_none hj).2 (held_of_update_none hk).2
  | drop i issued held spent =>
    constructor
    · rw [spent]
      exact h.nodup
    · rw [spent, issued]
      exact h.issued_of_spent
    · intro j y hy
      rw [held] at hy
      rw [issued]
      exact h.issued_of_held j y (held_of_update_none hy).2
    · intro j y hy
      rw [held] at hy
      rw [spent]
      exact h.unspent_of_held j y (held_of_update_none hy).2
    · intro j k y hj hk
      rw [held] at hj hk
      exact h.held_injective j k y (held_of_update_none hj).2 (held_of_update_none hk).2
  | skip issued held spent =>
    obtain ⟨issued₀, held₀, spent₀⟩ := s'
    simp only at issued held spent
    subst issued held spent
    exact ⟨h.nodup, h.issued_of_spent, h.issued_of_held, h.unspent_of_held, h.held_injective⟩

end Tickets
