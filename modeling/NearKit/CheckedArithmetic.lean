import Mathlib.Algebra.Group.Nat.Defs
import Mathlib.Tactic.Common

/-!
# Checked arithmetic

The operations of the unsigned integers below a bound, with the overflow of the exact
result apart, and results of functions that may panic.
-/
namespace NearKit

/-! ## Operations -/

namespace Checked

def below (bound n : ℕ) : Option ℕ := if n < bound then some n else none

def add (bound a b : ℕ) : Option ℕ := below bound (a + b)

def mul (bound a b : ℕ) : Option ℕ := below bound (a * b)

def pow (bound a b : ℕ) : Option ℕ := below bound (a ^ b)

def sub (a b : ℕ) : Option ℕ := if b ≤ a then some (a - b) else none

theorem below_of_lt {bound n : ℕ} (h : n < bound) : below bound n = some n := if_pos h

theorem below_of_le {bound n : ℕ} (h : bound ≤ n) : below bound n = none := if_neg (Nat.not_lt.mpr h)

theorem below_eq_some {bound n m : ℕ} : below bound n = some m ↔ n < bound ∧ n = m := by
  simp only [below, Option.ite_none_right_eq_some, Option.some.injEq]

theorem add_of_lt {bound a b : ℕ} (h : a + b < bound) : add bound a b = some (a + b) :=
  below_of_lt h

theorem mul_of_lt {bound a b : ℕ} (h : a * b < bound) : mul bound a b = some (a * b) :=
  below_of_lt h

theorem pow_of_lt {bound a b : ℕ} (h : a ^ b < bound) : pow bound a b = some (a ^ b) :=
  below_of_lt h

theorem pow_of_le {bound a b : ℕ} (h : bound ≤ a ^ b) : pow bound a b = none := below_of_le h

theorem sub_of_le {a b : ℕ} (h : b ≤ a) : sub a b = some (a - b) := if_pos h

theorem mul_bind_add (bound a b c : ℕ) :
    ((mul bound a b).bind fun v => add bound v c) = below bound (a * b + c) := by
  by_cases h : a * b < bound
  · rw [mul_of_lt h]
    rfl
  · have hle : bound ≤ a * b := Nat.not_lt.mp h
    rw [mul, below_of_le hle, below_of_le (Nat.le_trans hle (Nat.le_add_right _ _))]
    rfl

end Checked

/-! ## Panics -/

/-- A result of a function that may panic; `none` is the panic. -/
abbrev MayPanic (ε α : Type) := ExceptT ε Option α

instance {ε α : Type} [DecidableEq ε] [DecidableEq α] : DecidableEq (MayPanic ε α) :=
  inferInstanceAs (DecidableEq (Option (Except ε α)))

namespace MayPanic
variable {ε α β : Type}

def ok (a : α) : MayPanic ε α := some (.ok a)

def err (e : ε) : MayPanic ε α := some (.error e)

def panic : MayPanic ε α := none

/-- An operation that panics where it has no result. -/
def orPanic : Option α → MayPanic ε α
  | some a => ok a
  | none => panic

def okOr (e : ε) : Option α → MayPanic ε α
  | some a => ok a
  | none => err e

@[simp] theorem ok_bind (a : α) (f : α → MayPanic ε β) : (ok a >>= f) = f a := rfl

@[simp] theorem err_bind (e : ε) (f : α → MayPanic ε β) : (err e >>= f) = err e := rfl

@[simp] theorem panic_bind (f : α → MayPanic ε β) : ((panic : MayPanic ε α) >>= f) = panic := rfl

@[simp] theorem orPanic_some (a : α) : (orPanic (some a) : MayPanic ε α) = ok a := rfl

@[simp] theorem orPanic_none : (orPanic none : MayPanic ε α) = panic := rfl

@[simp] theorem okOr_some (e : ε) (a : α) : okOr e (some a) = ok a := rfl

@[simp] theorem okOr_none (e : ε) : (okOr e none : MayPanic ε α) = err e := rfl

theorem ok_ne_panic (a : α) : (ok a : MayPanic ε α) ≠ panic := nofun

theorem err_ne_panic (e : ε) : (err e : MayPanic ε α) ≠ panic := nofun

theorem ok_inj {a b : α} : (ok a : MayPanic ε α) = ok b ↔ a = b :=
  ⟨fun h => Except.ok.inj (Option.some.inj h), fun h => congrArg ok h⟩

theorem err_ne_ok (e : ε) (a : α) : err e ≠ ok a := nofun

theorem okOr_eq_ok {e : ε} {x : Option α} {a : α} : okOr e x = ok a ↔ x = some a := by
  cases x with
  | none => exact iff_of_false nofun nofun
  | some b => exact ok_inj.trans Option.some_inj.symm

theorem bind_eq_ok {x : MayPanic ε α} {f : α → MayPanic ε β} {b : β} :
    (x >>= f) = ok b ↔ ∃ a, x = ok a ∧ f a = ok b := by
  rcases x with _ | e | a
  · exact iff_of_false nofun fun ⟨_, h, _⟩ => by cases h
  · exact iff_of_false nofun fun ⟨_, h, _⟩ => by cases h
  · constructor
    · exact fun h => ⟨a, rfl, h⟩
    · rintro ⟨a', ha, h⟩
      cases ha
      exact h

end MayPanic
end NearKit
