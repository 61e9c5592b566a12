import Mathlib.Data.Nat.Notation
import Mathlib.Data.List.Basic
import Mathlib.Data.List.Forall2
import Mathlib.Tactic.Common

/-!
# Byte readers and writers

A decoder consumes a prefix of the remaining bytes or fails with an I/O error; an
encoder returns the bytes it writes or fails before it has written all of them.
Both are pure functions, so a decoder's behaviour on a longer stream is part of
its value.
-/
namespace NearKit.Borsh

abbrev Bytes := List UInt8

/-- A fixed-size byte array `[u8; n]`. -/
abbrev ByteArr (n : ℕ) := {bs : Bytes // bs.length = n}

def ByteArr.zeros (n : ℕ) : ByteArr n := ⟨List.replicate n 0, List.length_replicate⟩

inductive ErrorKind where
  | unexpectedEof | invalidData | invalidInput
  deriving DecidableEq, Repr

structure IoError where
  kind : ErrorKind
  message : String
  deriving DecidableEq, Repr

/-- What `read_exact` reports when the stream is too short. -/
def unexpectedEof : IoError := ⟨.unexpectedEof, "failed to fill whole buffer"⟩

/-- What the primitive decoders turn a short stream into. -/
def unexpectedLength : IoError := ⟨.invalidData, "Unexpected length of input"⟩

def notAllBytesRead : IoError := ⟨.invalidData, "Not all bytes read"⟩

/-- The answer of a derived enum decoder to a discriminant it does not know. -/
def unexpectedTag (tag : UInt8) : IoError :=
  ⟨.invalidData, s!"Unexpected variant tag: {tag.toNat}"⟩

def Reader (α : Type) : Type := Bytes → Except IoError (α × Bytes)

namespace Reader
variable {α β γ : Type}

def fail (e : IoError) : Reader α := fun _ => .error e

instance : Monad Reader where
  pure a := fun bs => .ok (a, bs)
  bind x f := fun bs => match x bs with
    | .error e => .error e
    | .ok (a, rest) => f a rest

@[simp] theorem pure_apply (a : α) (bs : Bytes) : (pure a : Reader α) bs = .ok (a, bs) := rfl

@[simp] theorem fail_apply (e : IoError) (bs : Bytes) : (fail e : Reader α) bs = .error e := rfl

theorem bind_of_ok {x : Reader α} {f : α → Reader β} {bs rest : Bytes} {a : α}
    (h : x bs = .ok (a, rest)) : (x >>= f) bs = f a rest := by
  show (match x bs with | .error e => .error e | .ok (a, rest) => f a rest) = f a rest
  rw [h]

theorem bind_of_error {x : Reader α} {f : α → Reader β} {bs : Bytes} {e : IoError}
    (h : x bs = .error e) : (x >>= f) bs = .error e := by
  show (match x bs with | .error e => .error e | .ok (a, rest) => f a rest) = Except.error e
  rw [h]

/-- A sequence of two decoders succeeds exactly when both do, one after the other. -/
theorem bind_eq_ok {x : Reader α} {f : α → Reader β} {bs rest : Bytes} {b : β} :
    (x >>= f) bs = .ok (b, rest) ↔ ∃ a mid, x bs = .ok (a, mid) ∧ f a mid = .ok (b, rest) := by
  constructor
  · intro h
    cases hx : x bs with
    | error e => simp [bind_of_error hx] at h
    | ok p => exact ⟨p.1, p.2, rfl, by rwa [bind_of_ok hx] at h⟩
  · rintro ⟨a, mid, hx, hf⟩
    rwa [bind_of_ok hx]

theorem map_of_ok {x : Reader α} {g : α → β} {bs rest : Bytes} {a : α}
    (h : x bs = .ok (a, rest)) : (g <$> x) bs = .ok (g a, rest) :=
  bind_of_ok (f := fun a => pure (g a)) h

theorem map_eq_ok {x : Reader α} {g : α → β} {bs rest : Bytes} {b : β} :
    (g <$> x) bs = .ok (b, rest) ↔ ∃ a, x bs = .ok (a, rest) ∧ g a = b := by
  change (x >>= fun a => pure (g a)) bs = .ok (b, rest) ↔ _
  refine bind_eq_ok.trans ⟨?_, ?_⟩
  · rintro ⟨a, mid, hx, hp⟩
    cases hp
    exact ⟨a, hx, rfl⟩
  · rintro ⟨a, hx, rfl⟩
    exact ⟨a, rest, hx, rfl⟩

theorem map_congr {x y : Reader α} {bs bs' : Bytes} (g : α → β) (h : x bs = y bs') :
    (g <$> x) bs = (g <$> y) bs' := by
  cases hy : y bs' with
  | error e => exact (bind_of_error (h.trans hy)).trans (bind_of_error hy).symm
  | ok p => exact (map_of_ok (h.trans hy)).trans (map_of_ok hy).symm

instance : LawfulMonad Reader := LawfulMonad.mk' Reader
  (by
    intro α x
    funext bs
    cases h : x bs with
    | error e => exact bind_of_error h
    | ok p => exact map_of_ok h)
  (fun a f => rfl)
  (by
    intro α β γ x f g
    funext bs
    cases h : x bs with
    | error e => exact (bind_of_error (bind_of_error h)).trans (bind_of_error h).symm
    | ok p =>
      have hx : (x >>= fun a => f a >>= g) bs = (f p.1 >>= g) p.2 := bind_of_ok h
      refine Eq.trans ?_ hx.symm
      cases hf : f p.1 p.2 with
      | error e => exact (bind_of_error ((bind_of_ok h).trans hf)).trans (bind_of_error hf).symm
      | ok q => exact (bind_of_ok ((bind_of_ok h).trans hf)).trans (bind_of_ok hf).symm)

/-- `prefix.chain(reader)`: bytes already taken are put back in front of the stream. -/
def chain (taken : Bytes) (r : Reader α) : Reader α := fun bs => r (taken ++ bs)

/-- `read_exact` into a buffer of `n` bytes, with the error of a short stream. -/
def exactly (e : IoError) (n : ℕ) : Reader (ByteArr n) := fun bs =>
  if h : n ≤ bs.length then .ok (⟨bs.take n, by simp [h]⟩, bs.drop n) else .error e

theorem exactly_append (e : IoError) {n : ℕ} (v : ByteArr n) (rest : Bytes) :
    exactly e n (v.val ++ rest) = .ok (v, rest) := by
  obtain ⟨bs, rfl⟩ := v
  simp [exactly]

theorem exactly_eq_ok {e : IoError} {n : ℕ} {bs rest : Bytes} {v : ByteArr n} :
    exactly e n bs = .ok (v, rest) ↔ bs = v.val ++ rest := by
  refine ⟨?_, fun h => h ▸ exactly_append e v rest⟩
  intro h
  by_cases hle : n ≤ bs.length
  · simp only [exactly, hle, dif_pos, Except.ok.injEq, Prod.mk.injEq] at h
    obtain ⟨rfl, rfl⟩ := h
    exact (List.take_append_drop n bs).symm
  · simp [exactly, hle] at h

end Reader

/-- A decoder that must use every byte of its input. -/
def Reader.complete {α : Type} (r : Reader α) (bs : Bytes) : Except IoError α :=
  match r bs with
  | .error e => .error e
  | .ok (a, []) => .ok a
  | .ok (_, _ :: _) => .error notAllBytesRead

theorem Reader.complete_eq_ok {α : Type} {r : Reader α} {bs : Bytes} {a : α} :
    r.complete bs = .ok a ↔ r bs = .ok (a, []) := by
  unfold complete
  split <;> simp_all

/-- A sequence of two fallible steps succeeds exactly when both do. -/
theorem bind_eq_ok {ε α β : Type} {x : Except ε α} {f : α → Except ε β} {b : β} :
    (x >>= f) = .ok b ↔ ∃ a, x = .ok a ∧ f a = .ok b := by
  cases x with
  | error e => exact ⟨nofun, nofun⟩
  | ok a =>
    constructor
    · intro h
      exact ⟨a, rfl, h⟩
    · rintro ⟨a', ha, h⟩
      cases ha
      exact h

/-- A list of fallible steps succeeds exactly when all do. -/
theorem mapM_eq_ok {ε α β : Type} {f : α → Except ε β} {xs : List α} {ys : List β} :
    xs.mapM f = .ok ys ↔ List.Forall₂ (fun x y => f x = .ok y) xs ys := by
  induction xs generalizing ys with
  | nil =>
    rw [List.mapM_nil, List.forall₂_nil_left_iff]
    exact ⟨fun h => (Except.ok.inj h).symm, fun h => congrArg _ h.symm⟩
  | cons x xs ih =>
    rw [List.mapM_cons, List.forall₂_cons_left_iff, bind_eq_ok]
    constructor
    · rintro ⟨y, hy, h⟩
      obtain ⟨ys', hys, h⟩ := bind_eq_ok.mp h
      cases h
      exact ⟨y, ys', hy, ih.mp hys, rfl⟩
    · rintro ⟨y, ys', hy, hys, rfl⟩
      exact ⟨y, hy, bind_eq_ok.mpr ⟨ys', ih.mpr hys, rfl⟩⟩

theorem exists_mapM_eq_ok {ε α β : Type} {f : α → Except ε β} {xs : List α} :
    (∃ ys, xs.mapM f = .ok ys) ↔ ∀ x ∈ xs, ∃ y, f x = .ok y := by
  simp only [mapM_eq_ok]
  induction xs with
  | nil => exact iff_of_true ⟨[], .nil⟩ nofun
  | cons x xs ih =>
    rw [List.forall_mem_cons, ← ih]
    constructor
    · rintro ⟨ys, h⟩
      obtain ⟨y, ys', hy, hys, -⟩ := List.forall₂_cons_left_iff.mp h
      exact ⟨⟨y, hy⟩, ⟨ys', hys⟩⟩
    · rintro ⟨⟨y, hy⟩, ⟨ys, hys⟩⟩
      exact ⟨y :: ys, .cons hy hys⟩

/-- Two parts of one encoding, written one after the other. -/
def seq (x y : Except IoError Bytes) : Except IoError Bytes := do
  let p ← x
  let q ← y
  return p ++ q

theorem seq_eq_ok {x y : Except IoError Bytes} {p : Bytes} :
    seq x y = .ok p ↔ ∃ q r, x = .ok q ∧ y = .ok r ∧ p = q ++ r := by
  cases x <;> cases y <;> simp [seq, bind, Except.bind, pure, Except.pure, eq_comm]

end NearKit.Borsh
