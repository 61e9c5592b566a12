import NearKit.Actions
import NearKit.CheckedArithmetic
import NearKit.KeyTexts
import NearKit.Numerals
import NearKit.TextShapes

/-!
# Texts of amounts and of gas

The parsers of amounts and gas: a number, white space and a unit. The fraction of an
amount in NEAR is cut after 24 bytes, and the cut panics inside a character.
-/
namespace NearKit
open Numeral

/-! ## The parsers -/

inductive ParseAmountError where
  | ambiguousAmount (text : String)
  | invalidFormat (text : String)
  | invalidNumber (text : String)
  | overflow
  deriving DecidableEq

inductive ParseGasError where
  | invalidFormat (text : String)
  | invalidNumber (text : String)
  | overflow
  deriving DecidableEq

def yoctoPerNear : ℕ := 1000000000000000000000000

def yoctoPerMillinear : ℕ := 1000000000000000000000

def gasPerTgas : ℕ := 1000000000000

def gasPerGgas : ℕ := 1000000000

def u128Bound : ℕ := 2 ^ 128

def u64Bound : ℕ := 2 ^ 64

namespace Amount

/-- The text in front of one of the units and the space before it. -/
def stripUnit (units : List String) (cs : List Char) : Option (List Char) :=
  units.findSome? fun unit => Text.stripSuffix (' ' :: unit.toList) cs

/-- The number on one side of the point, zero where nothing stands. -/
def partValue (part : List Char) : Option ℕ := if part = [] then some 0 else fromStr u128Bound part

/-- The part of a fraction that is read. -/
def fractionDigits (decimalPart : List Char) : MayPanic ParseAmountError (List Char) :=
  if 24 < Text.byteLength decimalPart then
    .orPanic ((Text.splitAtByte 24 decimalPart).map Prod.fst)
  else .ok decimalPart

end Amount

open Amount

/-- `parse_near_decimal` of a text with a point. -/
def parseNearParts (invalid : ParseAmountError) (integerPart decimalPart : List Char) :
    MayPanic ParseAmountError NearToken := do
  let integer ← .okOr invalid (partValue integerPart)
  let decimalStr ← fractionDigits decimalPart
  let decimal ← .okOr invalid (partValue decimalStr)
  let decimalScale ← .orPanic (Checked.sub 24 (Text.byteLength decimalStr))
  let power ← .orPanic (Checked.pow u128Bound 10 decimalScale)
  let decimalYocto ← .orPanic (Checked.mul u128Bound decimal power)
  let total ← .okOr .overflow
    ((Checked.mul u128Bound integer yoctoPerNear).bind fun v =>
      Checked.add u128Bound v decimalYocto)
  .ok (.ofNat 128 total)

/-- A whole number of units of the given size. -/
def parseWhole {ε α : Type} (bound size : ℕ) (invalid overflow : ε) (make : ℕ → α)
    (value : List Char) : MayPanic ε α := do
  let v ← .okOr invalid (fromStr bound value)
  let total ← .okOr overflow (Checked.mul bound v size)
  .ok (make total)

def parseNearDecimal (text : List Char) : MayPanic ParseAmountError NearToken :=
  let s := Text.trim text
  let invalid := ParseAmountError.invalidNumber (String.ofList s)
  match splitOnceChars '.' s with
  | some (integerPart, decimalPart) => parseNearParts invalid integerPart decimalPart
  | none => parseWhole u128Bound yoctoPerNear invalid .overflow (.ofNat 128) s

def parseNearToken (text : String) : MayPanic ParseAmountError NearToken :=
  let s := Text.trim text.toList
  let invalid := ParseAmountError.invalidNumber (String.ofList s)
  match stripUnit ["NEAR", "near"] s with
  | some value => parseNearDecimal (Text.trim value)
  | none =>
    match stripUnit ["milliNEAR", "mNEAR"] s with
    | some value =>
      parseWhole u128Bound yoctoPerMillinear invalid .overflow (.ofNat 128) (Text.trim value)
    | none =>
      match stripUnit ["yoctoNEAR", "yocto"] s with
      | some value => do
        let v ← .okOr invalid (fromStr u128Bound (Text.trim value))
        .ok (.ofNat 128 v)
      | none =>
        if s.all fun c => c.isDigit || c == '.' then .err (.ambiguousAmount (String.ofList s))
        else .err (.invalidFormat (String.ofList s))

def parseGas (text : String) : MayPanic ParseGasError Gas :=
  let s := Text.trim text.toList
  let invalid := ParseGasError.invalidNumber (String.ofList s)
  match stripUnit ["Tgas", "tgas", "TGas"] s with
  | some value => parseWhole u64Bound gasPerTgas invalid .overflow .ofNat (Text.trim value)
  | none =>
    match stripUnit ["Ggas", "ggas", "GGas"] s with
    | some value => parseWhole u64Bound gasPerGgas invalid .overflow .ofNat (Text.trim value)
    | none =>
      match stripUnit ["gas"] s with
      | some value => do
        let v ← .okOr invalid (fromStr u64Bound (Text.trim value))
        .ok (.ofNat v)
      | none => .err (.invalidFormat (String.ofList s))

/-! ## Units -/

namespace Amount

theorem stripUnit_eq_some {units : List String} (hunits : ∀ u ∈ units, ' ' ∉ u.toList)
    {cs value : List Char} :
    stripUnit units cs = some value ↔ ∃ u ∈ units, cs = value ++ ' ' :: u.toList := by
  have hstrip {value : List Char} (h : stripUnit units cs = some value) :
      ∃ u ∈ units, cs = value ++ ' ' :: u.toList := by
    obtain ⟨u, hu, h⟩ := List.exists_of_findSome?_eq_some h
    exact ⟨u, hu, Text.stripSuffix_eq_some.mp h⟩
  refine ⟨hstrip, ?_⟩
  rintro ⟨u, hu, hcs⟩
  have hsome : (stripUnit units cs).isSome := by
    rw [stripUnit, List.isSome_findSome?, List.any_eq_true]
    exact ⟨u, hu, by rw [Text.stripSuffix_eq_some.mpr hcs]; rfl⟩
  obtain ⟨value', hvalue'⟩ := Option.isSome_iff_exists.mp hsome
  obtain ⟨u', hu', hcs'⟩ := hstrip hvalue'
  have hspace {v : String} (hv : v ∈ units) : ∀ c ∈ v.toList, ¬ c = ' ' := by
    rintro c hc rfl
    exact hunits v hv hc
  have hsame := Text.append_cons_inj_of_last (p := (· = ' ')) rfl rfl (hspace hu') (hspace hu)
    (hcs'.symm.trans hcs)
  rw [hvalue', hsame.1]

theorem space_not_mem_near : ∀ u ∈ ["NEAR", "near"], ' ' ∉ u.toList := by decide

theorem space_not_mem_milli : ∀ u ∈ ["milliNEAR", "mNEAR"], ' ' ∉ u.toList := by decide

theorem space_not_mem_yocto : ∀ u ∈ ["yoctoNEAR", "yocto"], ' ' ∉ u.toList := by decide

/-! ## Fractions -/

theorem fractionDigits_eq_ok {decimalPart digits : List Char} :
    fractionDigits decimalPart = .ok digits ↔ ∃ rest, decimalPart = digits ++ rest ∧
      Text.byteLength digits ≤ 24 ∧ (Text.byteLength digits = 24 ∨ rest = []) := by
  unfold fractionDigits
  by_cases hlong : 24 < Text.byteLength decimalPart
  · rw [if_pos hlong]
    constructor
    · intro h
      cases hcut : Text.splitAtByte 24 decimalPart with
      | none =>
        rw [hcut] at h
        cases h
      | some cut =>
        obtain ⟨xs, ys⟩ := cut
        rw [hcut] at h
        cases h
        obtain ⟨hcs, hlen⟩ := Text.splitAtByte_eq_some.mp hcut
        exact ⟨ys, hcs, hlen.le, .inl hlen⟩
    · rintro ⟨rest, rfl, hle, hcut⟩
      have hlen : Text.byteLength digits = 24 := by
        rcases hcut with h | rfl
        · exact h
        · rw [List.append_nil] at hlong
          omega
      rw [Text.splitAtByte_eq_some.mpr ⟨rfl, hlen⟩]
      rfl
  · rw [if_neg hlong]
    constructor
    · intro h
      cases h
      exact ⟨[], (List.append_nil _).symm, Nat.not_lt.mp hlong, .inr rfl⟩
    · rintro ⟨rest, rfl, hle, hcut⟩
      rcases hcut with h | rfl
      · rw [Text.byteLength_append] at hlong
        have hrest : Text.byteLength rest = 0 := by omega
        have hnil : rest = [] := by
          cases rest with
          | nil => rfl
          | cons c rest =>
            have hpos := c.utf8Size_pos
            rw [Text.byteLength_cons] at hrest
            omega
        rw [hnil, List.append_nil]
      · rw [List.append_nil]

/-- No part of the text ends after so many bytes. -/
def NoBoundary (n : ℕ) (cs : List Char) : Prop :=
  ∀ xs ys, cs = xs ++ ys → Text.byteLength xs ≠ n

private theorem fractionDigits_eq_panic {decimalPart : List Char} :
    fractionDigits decimalPart = .panic ↔
      24 < Text.byteLength decimalPart ∧ NoBoundary 24 decimalPart := by
  unfold fractionDigits
  by_cases hlong : 24 < Text.byteLength decimalPart
  · rw [if_pos hlong]
    cases hcut : Text.splitAtByte 24 decimalPart with
    | none =>
      refine iff_of_true rfl ⟨hlong, fun xs ys hcs hlen => ?_⟩
      rw [Text.splitAtByte_eq_some.mpr ⟨hcs, hlen⟩] at hcut
      cases hcut
    | some cut =>
      obtain ⟨hcs, hlen⟩ := Text.splitAtByte_eq_some.mp hcut
      exact iff_of_false nofun fun h => h.2 _ _ hcs hlen
  · rw [if_neg hlong]
    exact iff_of_false nofun fun h => hlong h.1

theorem fractionDigits_cases (decimalPart : List Char) :
    fractionDigits decimalPart = .panic ∨ ∃ digits, fractionDigits decimalPart = .ok digits := by
  unfold fractionDigits
  split
  · cases Text.splitAtByte 24 decimalPart with
    | none => exact .inl rfl
    | some cut => exact .inr ⟨cut.1, rfl⟩
  · exact .inr ⟨decimalPart, rfl⟩

theorem byteLength_digits {ds : List Char} (h : AllDigits ds) :
    Text.byteLength ds = ds.length := by
  refine Text.byteLength_of_ascii fun c hc => ?_
  have hle : c.toNat ≤ 57 := (Char.isDigit_iff_toNat.mp (h c hc)).2
  omega

/-- So many bytes write a number below that power of ten. -/
theorem partValue_lt {part : List Char} {n : ℕ} (h : partValue part = some n) :
    n < 10 ^ Text.byteLength part := by
  unfold partValue at h
  split at h
  · cases h
    exact Nat.pow_pos (by decide)
  · obtain ⟨ds, hds, rfl, -, rfl | rfl⟩ := fromStr_cases h
    · rw [byteLength_digits hds.2]
      exact value_lt hds.2
    · have hlt := value_lt hds.2
      have hsize : '+'.utf8Size = 1 := rfl
      rw [Text.byteLength_cons, hsize, byteLength_digits hds.2, Nat.pow_add]
      omega

/-! ## Amounts in NEAR -/

theorem scaled_lt {n k : ℕ} (h : n < 10 ^ k) (hk : k ≤ 24) : n * 10 ^ (24 - k) < 10 ^ 24 := by
  calc n * 10 ^ (24 - k) < 10 ^ k * 10 ^ (24 - k) := Nat.mul_lt_mul_of_pos_right h (by positivity)
    _ = 10 ^ 24 := by rw [← Nat.pow_add, Nat.add_sub_cancel' hk]

theorem ten_pow_lt_u128Bound : 10 ^ 24 < u128Bound := by
  norm_num [u128Bound]

/-- The result for the two sides of a point. No unchecked operation overflows. -/
theorem parseNearParts_eq {invalid : ParseAmountError} {integerPart decimalPart digits : List Char}
    {integer decimal : ℕ} (hinteger : partValue integerPart = some integer)
    (hdigits : fractionDigits decimalPart = .ok digits)
    (hdecimal : partValue digits = some decimal) :
    parseNearParts invalid integerPart decimalPart =
      (.okOr .overflow (Checked.below u128Bound
          (integer * yoctoPerNear + decimal * 10 ^ (24 - Text.byteLength digits))) >>=
        fun total => .ok (.ofNat 128 total)) := by
  obtain ⟨-, -, hle, -⟩ := fractionDigits_eq_ok.mp hdigits
  have hpow : 10 ^ (24 - Text.byteLength digits) < u128Bound := by
    have hmono : 10 ^ (24 - Text.byteLength digits) ≤ 10 ^ 24 :=
      Nat.pow_le_pow_right (by decide) (Nat.sub_le _ _)
    exact Nat.lt_of_le_of_lt hmono ten_pow_lt_u128Bound
  have hmul : decimal * 10 ^ (24 - Text.byteLength digits) < u128Bound :=
    Nat.lt_trans (scaled_lt (partValue_lt hdecimal) hle) ten_pow_lt_u128Bound
  unfold parseNearParts
  rw [hinteger, MayPanic.okOr_some, MayPanic.ok_bind, hdigits, MayPanic.ok_bind, hdecimal,
    MayPanic.okOr_some, MayPanic.ok_bind, Checked.sub_of_le hle, MayPanic.orPanic_some,
    MayPanic.ok_bind, Checked.pow_of_lt hpow, MayPanic.orPanic_some, MayPanic.ok_bind,
    Checked.mul_of_lt hmul, MayPanic.orPanic_some, MayPanic.ok_bind, Checked.mul_bind_add]

/-! ## Where the parser panics -/

theorem parseWhole_ne_panic {ε α : Type} (bound size : ℕ) (invalid overflow : ε) (make : ℕ → α)
    (value : List Char) : parseWhole bound size invalid overflow make value ≠ .panic := by
  unfold parseWhole
  cases fromStr bound value with
  | none => exact MayPanic.err_ne_panic _
  | some v =>
    rw [MayPanic.okOr_some, MayPanic.ok_bind]
    cases Checked.mul bound v size with
    | none => exact MayPanic.err_ne_panic _
    | some total => exact MayPanic.ok_ne_panic _

private theorem parseNearParts_eq_panic {invalid : ParseAmountError}
    {integerPart decimalPart : List Char} :
    parseNearParts invalid integerPart decimalPart = .panic ↔
      (partValue integerPart).isSome ∧ fractionDigits decimalPart = .panic := by
  cases hinteger : partValue integerPart with
  | none =>
    unfold parseNearParts
    rw [hinteger]
    exact iff_of_false nofun nofun
  | some integer =>
    rcases fractionDigits_cases decimalPart with hpanic | ⟨digits, hdigits⟩
    · unfold parseNearParts
      rw [hinteger, hpanic]
      exact iff_of_true rfl ⟨rfl, rfl⟩
    · rw [hdigits]
      refine iff_of_false ?_ nofun
      cases hdecimal : partValue digits with
      | none =>
        unfold parseNearParts
        rw [hinteger, MayPanic.okOr_some, MayPanic.ok_bind, hdigits, MayPanic.ok_bind, hdecimal]
        exact MayPanic.err_ne_panic _
      | some decimal =>
        rw [parseNearParts_eq hinteger hdigits hdecimal]
        cases Checked.below u128Bound _ with
        | none => exact MayPanic.err_ne_panic _
        | some total => exact MayPanic.ok_ne_panic _

/-- The number in front of the unit has a fraction whose 24th byte ends inside a character,
behind an integer that is read. -/
def CutsCharacter (number : List Char) : Prop :=
  ∃ integerPart decimalPart, number = integerPart ++ '.' :: decimalPart ∧ '.' ∉ integerPart ∧
    (partValue integerPart).isSome ∧ 24 < Text.byteLength decimalPart ∧ NoBoundary 24 decimalPart

theorem parseNearDecimal_of_point {text integerPart decimalPart : List Char}
    (htext : Text.trim text = integerPart ++ '.' :: decimalPart) (hpoint : '.' ∉ integerPart) :
    parseNearDecimal text =
      parseNearParts (.invalidNumber (String.ofList (Text.trim text))) integerPart decimalPart := by
  have hsplit : splitOnceChars '.' (Text.trim text) = some (integerPart, decimalPart) :=
    splitOnceChars_eq_some_iff.mpr ⟨htext, hpoint⟩
  simp only [parseNearDecimal, hsplit]

theorem parseNearDecimal_of_no_point {text : List Char} (hpoint : '.' ∉ Text.trim text) :
    parseNearDecimal text =
      parseWhole u128Bound yoctoPerNear (.invalidNumber (String.ofList (Text.trim text))) .overflow
        (.ofNat 128) (Text.trim text) := by
  simp only [parseNearDecimal, splitOnceChars_eq_none.mpr hpoint]

theorem point_cases (number : List Char) : '.' ∉ number ∨
    ∃ integerPart decimalPart, number = integerPart ++ '.' :: decimalPart ∧ '.' ∉ integerPart := by
  by_cases h : '.' ∈ number
  · exact .inr (List.eq_append_cons_of_mem h)
  · exact .inl h

private theorem parseNearDecimal_eq_panic {text : List Char} :
    parseNearDecimal text = .panic ↔ CutsCharacter (Text.trim text) := by
  rcases point_cases (Text.trim text) with hpoint | ⟨integerPart, decimalPart, heq, hpoint⟩
  · rw [parseNearDecimal_of_no_point hpoint]
    refine iff_of_false (parseWhole_ne_panic _ _ _ _ _ _) ?_
    rintro ⟨integerPart, decimalPart, heq, -⟩
    rw [heq] at hpoint
    exact hpoint (List.mem_append_right _ List.mem_cons_self)
  · rw [parseNearDecimal_of_point heq hpoint, parseNearParts_eq_panic, fractionDigits_eq_panic]
    constructor
    · rintro ⟨hinteger, hlong, hcut⟩
      exact ⟨integerPart, decimalPart, heq, hpoint, hinteger, hlong, hcut⟩
    · rintro ⟨xs, ys, heq', hpoint', h⟩
      obtain ⟨rfl, rfl⟩ := sides_unique hpoint hpoint' (heq.symm.trans heq')
      exact h

end Amount

/-- The text is an amount in NEAR whose fraction is cut inside a character. -/
def CutInsideCharacter (text : String) : Prop :=
  ∃ value, ∃ unit ∈ ["NEAR", "near"], Text.trim text.toList = value ++ ' ' :: unit.toList ∧
    CutsCharacter (Text.trim value)

theorem parseNearToken_of_near {text : String} {value : List Char}
    (h : stripUnit ["NEAR", "near"] (Text.trim text.toList) = some value) :
    parseNearToken text = parseNearDecimal (Text.trim value) := by
  simp only [parseNearToken, h]

/-- Without the unit NEAR nothing is cut. -/
theorem parseNearToken_ne_panic {text : String}
    (h : stripUnit ["NEAR", "near"] (Text.trim text.toList) = none) :
    parseNearToken text ≠ .panic := by
  simp only [parseNearToken, h]
  split
  · exact parseWhole_ne_panic _ _ _ _ _ _
  · split
    · next value _ =>
      cases fromStr u128Bound (Text.trim value) with
      | none => exact MayPanic.err_ne_panic _
      | some v => exact MayPanic.ok_ne_panic _
    · split
      · exact MayPanic.err_ne_panic _
      · exact MayPanic.err_ne_panic _

/-- The parser of amounts panics on exactly the texts that it cuts inside a character. -/
theorem parseNearToken_panics_iff (text : String) :
    parseNearToken text ≠ .panic ↔ ¬ CutInsideCharacter text := by
  apply not_congr
  have hunit (value : List Char) :
      stripUnit ["NEAR", "near"] (Text.trim text.toList) = some value ↔
        ∃ unit ∈ ["NEAR", "near"], Text.trim text.toList = value ++ ' ' :: unit.toList :=
    stripUnit_eq_some space_not_mem_near
  cases hnear : stripUnit ["NEAR", "near"] (Text.trim text.toList) with
  | none =>
    refine iff_of_false (parseNearToken_ne_panic hnear) ?_
    rintro ⟨value, unit, hmem, heq, -⟩
    rw [(hunit value).mpr ⟨unit, hmem, heq⟩] at hnear
    cases hnear
  | some value =>
    obtain ⟨unit, hmem, heq⟩ := (hunit value).mp hnear
    rw [parseNearToken_of_near hnear, parseNearDecimal_eq_panic,
      Text.trim_of_trimmed (Text.trimmed_trim value)]
    constructor
    · exact fun h => ⟨value, unit, hmem, heq, h⟩
    · rintro ⟨value', unit', hmem', heq', h⟩
      have hsame := (hunit value').mpr ⟨unit', hmem', heq'⟩
      rw [hnear] at hsame
      cases hsame
      exact h

/-- Behind 23 digits a letter of two bytes is the 24th and the 25th byte of the fraction. -/
theorem parseNearToken_panics : parseNearToken "0.11111111111111111111111é NEAR" = .panic := rfl

end NearKit
