import NearKit.DebugText
import Mathlib.Data.List.Induction

/-!
# Decimal numerals

Lists of ASCII digits and the numbers that they write, with the parser and the printer of
Rust's unsigned integers.
-/
namespace NearKit.Numeral

/-- A list of ASCII digits, which may be empty. -/
def AllDigits (cs : List Char) : Prop := ∀ c ∈ cs, c.isDigit = true

def IsNumeral (cs : List Char) : Prop := cs ≠ [] ∧ AllDigits cs

instance (cs : List Char) : Decidable (AllDigits cs) := List.decidableBAll _ cs

instance (cs : List Char) : Decidable (IsNumeral cs) := inferInstanceAs (Decidable (_ ∧ _))

/-- The number that the digits write. -/
def value (ds : List Char) : ℕ := Nat.ofDigitChars 10 ds 0

/-- `from_str` allows one sign in front of the digits. -/
def withoutPlus : List Char → List Char
  | [] => []
  | c :: cs => if c = '+' then cs else c :: cs

/-- `from_str` of the unsigned integers below a bound. The kinds of its error are left out. -/
def fromStr (bound : ℕ) (cs : List Char) : Option ℕ :=
  let ds := withoutPlus cs
  if IsNumeral ds ∧ value ds < bound then some (value ds) else none

def display (n : ℕ) : List Char := Nat.toDigits 10 n

/-! ## Digits -/

@[simp] theorem allDigits_nil : AllDigits [] := nofun

theorem allDigits_append {xs ys : List Char} :
    AllDigits (xs ++ ys) ↔ AllDigits xs ∧ AllDigits ys := by
  unfold AllDigits
  exact List.forall_mem_append

theorem allDigits_replicate (n : ℕ) : AllDigits (List.replicate n '0') := by
  intro c hc
  rw [List.eq_of_mem_replicate hc]
  rfl

theorem AllDigits.not_mem {cs : List Char} (h : AllDigits cs) {c : Char}
    (hc : c.isDigit = false) : c ∉ cs := by
  intro hmem
  have hdigit := h c hmem
  rw [hc] at hdigit
  cases hdigit

theorem IsNumeral.exists_cons {cs : List Char} (h : IsNumeral cs) :
    ∃ d ds, cs = d :: ds ∧ d.isDigit = true := by
  obtain ⟨d, ds, rfl⟩ := List.exists_cons_of_ne_nil h.1
  exact ⟨d, ds, rfl, h.2 d List.mem_cons_self⟩

/-! ## Values -/

@[simp] theorem value_nil : value [] = 0 := Nat.ofDigitChars_nil

theorem value_append (xs ys : List Char) :
    value (xs ++ ys) = value xs * 10 ^ ys.length + value ys := by
  unfold value
  rw [Nat.ofDigitChars_append, Nat.ofDigitChars_eq_ofDigitChars_zero, Nat.mul_comm]

theorem value_replicate_zero (n : ℕ) : value (List.replicate n '0') = 0 := by
  unfold value
  rw [Nat.ofDigitChars_replicate_zero, Nat.mul_zero]

theorem value_padRight (ds : List Char) (n : ℕ) :
    value (ds ++ List.replicate n '0') = value ds * 10 ^ n := by
  rw [value_append, value_replicate_zero, List.length_replicate, Nat.add_zero]

theorem value_padLeft (n : ℕ) (ds : List Char) :
    value (List.replicate n '0' ++ ds) = value ds := by
  rw [value_append, value_replicate_zero, Nat.zero_mul, Nat.zero_add]

theorem value_singleton (c : Char) : value [c] = c.toNat - 48 := by
  unfold value
  rw [Nat.ofDigitChars_cons, Nat.ofDigitChars_nil, Nat.mul_zero, Nat.zero_add]
  rfl

theorem value_singleton_lt {c : Char} (h : c.isDigit = true) : value [c] < 10 := by
  have hle : c.toNat ≤ 57 := (Char.isDigit_iff_toNat.mp h).2
  rw [value_singleton]
  omega

/-- So many digits write a number below that power of ten. -/
theorem value_lt {ds : List Char} (h : AllDigits ds) : value ds < 10 ^ ds.length := by
  induction ds using List.reverseRecOn with
  | nil => simp
  | append_singleton ds d ih =>
    obtain ⟨hds, hd⟩ := allDigits_append.mp h
    have hhead := ih hds
    have hlast := value_singleton_lt (hd d List.mem_cons_self)
    rw [value_append, List.length_append, List.length_singleton, pow_one, pow_succ]
    omega

/-! ## Parsing -/

theorem withoutPlus_of_allDigits {cs : List Char} (h : AllDigits cs) : withoutPlus cs = cs := by
  cases cs with
  | nil => rfl
  | cons c cs =>
    have hne : c ≠ '+' := by
      rintro rfl
      exact absurd (h '+' List.mem_cons_self) (by decide)
    exact if_neg hne

theorem withoutPlus_plus (cs : List Char) : withoutPlus ('+' :: cs) = cs := by
  simp [withoutPlus]

theorem withoutPlus_cases (cs : List Char) :
    withoutPlus cs = cs ∨ cs = '+' :: withoutPlus cs := by
  cases cs with
  | nil => exact .inl rfl
  | cons c cs =>
    by_cases hc : c = '+'
    · subst hc
      exact .inr (congrArg _ (withoutPlus_plus cs).symm)
    · exact .inl (if_neg hc)

theorem fromStr_eq_some {bound : ℕ} {cs : List Char} {n : ℕ} :
    fromStr bound cs = some n ↔
      IsNumeral (withoutPlus cs) ∧ value (withoutPlus cs) = n ∧ n < bound := by
  simp only [fromStr, Option.ite_none_right_eq_some, Option.some.injEq]
  constructor
  · rintro ⟨⟨hnumeral, hlt⟩, rfl⟩
    exact ⟨hnumeral, rfl, hlt⟩
  · rintro ⟨hnumeral, rfl, hlt⟩
    exact ⟨⟨hnumeral, hlt⟩, rfl⟩

theorem fromStr_numeral {bound : ℕ} {ds : List Char} (h : IsNumeral ds) (hlt : value ds < bound) :
    fromStr bound ds = some (value ds) := by
  rw [fromStr_eq_some, withoutPlus_of_allDigits h.2]
  exact ⟨h, rfl, hlt⟩

/-- A text that is parsed is a numeral, or a sign and a numeral. -/
theorem fromStr_cases {bound : ℕ} {cs : List Char} {n : ℕ} (h : fromStr bound cs = some n) :
    ∃ ds, IsNumeral ds ∧ value ds = n ∧ n < bound ∧ (cs = ds ∨ cs = '+' :: ds) := by
  obtain ⟨hnumeral, hvalue, hlt⟩ := fromStr_eq_some.mp h
  refine ⟨withoutPlus cs, hnumeral, hvalue, hlt, ?_⟩
  rcases withoutPlus_cases cs with heq | heq
  · exact .inl heq.symm
  · exact .inr heq

/-! ## Printing -/

theorem isNumeral_display (n : ℕ) : IsNumeral (display n) :=
  ⟨Nat.toDigits_ne_nil, fun _ hc => Nat.isDigit_of_mem_toDigits (by decide) (by decide) hc⟩

@[simp] theorem value_display (n : ℕ) : value (display n) = n := Nat.ofDigitChars_ten_toDigits

/-- A number is printed with the digits that it needs. -/
theorem length_display_le {n k : ℕ} (hk : 0 < k) (h : n < 10 ^ k) : (display n).length ≤ k :=
  (Nat.length_toDigits_le_iff (by decide) hk).mpr h

theorem fromStr_display {bound n : ℕ} (h : n < bound) : fromStr bound (display n) = some n := by
  have hvalue := value_display n
  rw [fromStr_numeral (isNumeral_display n) (by omega), hvalue]

end NearKit.Numeral
