import Mathlib.Data.List.Forall2
import Mathlib.Tactic.Common

/-!
# Checks in order

Computations that fail with the first of their complaints. What is to be complained about is
listed apart from the computation, and the lists of two computations in a row are appended.
-/
namespace NearKit
variable {ε α β : Type}

/-- The computation returns what `post` says if there are no complaints, and throws the first
one otherwise. -/
def Vetted (complaints : List ε) (post : α → Prop) : Except ε α → Prop
  | .ok a => complaints = [] ∧ post a
  | .error e => complaints.head? = some e

def complain (e : ε) (bad : Bool) : List ε := if bad then [e] else []

@[simp] theorem complain_true (e : ε) : complain e true = [e] := rfl

@[simp] theorem complain_false (e : ε) : complain e false = [] := rfl

@[simp] theorem complain_eq_nil {e : ε} {bad : Bool} : complain e bad = [] ↔ bad = false := by
  cases bad <;> simp

namespace Vetted
variable {complaints complaints' : List ε} {post : α → Prop} {post' : β → Prop} {x : Except ε α}
  {e : ε}

theorem ok {a : α} (h : post a) : Vetted ([] : List ε) post (.ok a) := ⟨rfl, h⟩

theorem error (e : ε) (rest : List ε) (post : α → Prop) : Vetted (e :: rest) post (.error e) := rfl

theorem imp {post' : α → Prop} (h : Vetted complaints post x) (himp : ∀ a, post a → post' a) :
    Vetted complaints post' x := by
  cases x with
  | ok a => exact ⟨h.1, himp a h.2⟩
  | error e => exact h

/-- The second computation may rely on the first one. -/
theorem bind {f : α → Except ε β} (h : Vetted complaints post x)
    (hf : ∀ a, post a → Vetted complaints' post' (f a)) :
    Vetted (complaints ++ complaints') post' (x >>= f) := by
  cases x with
  | ok a =>
    obtain ⟨rfl, ha⟩ := h
    exact hf a ha
  | error e =>
    show (complaints ++ complaints').head? = some e
    rw [List.head?_append, show complaints.head? = some e from h]
    rfl

theorem check (bad : Bool) (h : bad = false → Vetted complaints post x) :
    Vetted (complain e bad ++ complaints) post (if bad then .error e else x) := by
  cases bad with
  | true => exact error e _ _
  | false => exact h rfl

/-- The complaints about a list are the complaints about its members, in order. -/
theorem mapM {f : α → Except ε β} {complaints : α → List ε} {post : α → β → Prop}
    {xs : List α} (h : ∀ a ∈ xs, Vetted (complaints a) (post a) (f a)) :
    Vetted (xs.flatMap complaints) (List.Forall₂ post xs) (xs.mapM f) := by
  induction xs with
  | nil => exact ok .nil
  | cons a xs ih =>
    rw [List.mapM_cons, List.flatMap_cons]
    apply (h a List.mem_cons_self).bind
    intro b hb
    rw [← List.append_nil (xs.flatMap complaints)]
    apply (ih fun a ha => h a (List.mem_cons_of_mem _ ha)).bind
    intro bs hbs
    exact ok (.cons hb hbs)

theorem error_iff (h : Vetted complaints post x) : x = .error e ↔ complaints.head? = some e := by
  cases x with
  | ok a =>
    obtain ⟨rfl, -⟩ := h
    simp
  | error e' =>
    rw [show complaints.head? = some e' from h]
    simp

theorem exists_ok_iff (h : Vetted complaints post x) : (∃ a, x = .ok a) ↔ complaints = [] := by
  cases x with
  | ok a => simp [h.1]
  | error e =>
    cases complaints with
    | nil => cases h
    | cons e' rest => simp

theorem post_of_eq_ok {a : α} (h : Vetted complaints post x) (hx : x = .ok a) : post a := by
  subst hx
  exact h.2

end Vetted
end NearKit
