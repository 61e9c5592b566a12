import NearKit.AmountGrammar

/-!
# Amounts of fungible tokens

An amount is a raw number of the smallest units and the decimals of its token. Its text is
split at the point; the digits behind it are padded to the decimals. Ten to the power of the
decimals is computed unchecked in a `u128`.
-/
namespace NearKit
open Numeral Amount

/-! ## Formatting and parsing -/

structure FtAmount where
  raw : BitVec 128
  decimals : UInt8
  symbol : String
  deriving DecidableEq

def padLeft (width : ℕ) (cs : List Char) : List Char :=
  List.replicate (width - cs.length) '0' ++ cs

def padRight (width : ℕ) (cs : List Char) : List Char :=
  cs ++ List.replicate (width - cs.length) '0'

/-- The text of a raw amount. `none` is a panic, which is also what an overflow is. -/
def formatRawWithDecimals (raw : BitVec 128) (decimals : UInt8) : Option (List Char) :=
  if decimals = 0 then some (display raw.toNat)
  else do
    let divisor ← Checked.pow u128Bound 10 decimals.toNat
    let whole := raw.toNat / divisor
    let frac := raw.toNat % divisor
    if frac = 0 then some (display whole)
    else
      let fracStr := padLeft decimals.toNat (display frac)
      let trimmed := Text.trimEndMatches '0' fracStr
      some (display whole ++ '.' :: trimmed)

/-- `parse_decimal_to_raw` of a text with one point. -/
def parseDecimalParts (s : List Char) (decimals : UInt8) (wholeStr fracStr : List Char) :
    MayPanic ParseAmountError (BitVec 128) := do
  let invalid := ParseAmountError.invalidNumber (String.ofList s)
  let whole ← .okOr invalid (partValue wholeStr)
  if decimals.toNat < Text.byteLength fracStr then
    .err (.invalidFormat ("Too many decimal places: " ++ String.ofList s ++ " has " ++
      toString (Text.byteLength fracStr) ++ " but max is " ++ toString decimals.toNat))
  else
    let padded := padRight decimals.toNat fracStr
    let frac ← .okOr invalid (fromStr u128Bound padded)
    let power ← .orPanic (Checked.pow u128Bound 10 decimals.toNat)
    let wholeShifted ← .okOr .overflow (Checked.mul u128Bound whole power)
    let total ← .okOr .overflow (Checked.add u128Bound wholeShifted frac)
    .ok (.ofNat 128 total)

def parseDecimalToRaw (text : List Char) (decimals : UInt8) :
    MayPanic ParseAmountError (BitVec 128) :=
  let s := Text.trim text
  if s = [] then .err (.invalidFormat (String.ofList s))
  else match s.splitOn '.' with
  | [wholeStr] => do
    let whole ← .okOr (.invalidNumber (String.ofList s)) (fromStr u128Bound wholeStr)
    let power ← .orPanic (Checked.pow u128Bound 10 decimals.toNat)
    let total ← .okOr .overflow (Checked.mul u128Bound whole power)
    .ok (.ofNat 128 total)
  | [wholeStr, fracStr] => parseDecimalParts s decimals wholeStr fracStr
  | _ => .err (.invalidFormat ("Multiple decimal points in: " ++ String.ofList s))

namespace FtAmount

def parse (text : String) (decimals : UInt8) (symbol : String) :
    MayPanic ParseAmountError FtAmount := do
  let raw ← parseDecimalToRaw text.toList decimals
  .ok ⟨raw, decimals, symbol⟩

/-- `None` is a panic. -/
def formatAmount (amount : FtAmount) : Option String :=
  (formatRawWithDecimals amount.raw amount.decimals).map String.ofList

end FtAmount

/-! ## Powers of ten -/

/-- 10^38 is the last power of ten in a `u128`. -/
theorem ten_pow_lt_iff {k : ℕ} : 10 ^ k < u128Bound ↔ k ≤ 38 := by
  have hlast : 10 ^ 38 < u128Bound := by norm_num [u128Bound]
  have hnext : u128Bound ≤ 10 ^ 39 := by norm_num [u128Bound]
  constructor
  · intro h
    by_contra hk
    have hmono : 10 ^ 39 ≤ 10 ^ k := Nat.pow_le_pow_right (by decide) (by omega)
    omega
  · intro hk
    have hmono : 10 ^ k ≤ 10 ^ 38 := Nat.pow_le_pow_right (by decide) hk
    omega

/-! ## What is parsed -/

section
variable {text : List Char} {decimals : UInt8}

theorem parseDecimalToRaw_whole (hpow : 10 ^ decimals.toNat < u128Bound) (hne : Text.trim text ≠ [])
    (hpoint : '.' ∉ Text.trim text) :
    parseDecimalToRaw text decimals = parseWhole u128Bound (10 ^ decimals.toNat)
      (.invalidNumber (String.ofList (Text.trim text))) .overflow (.ofNat 128) (Text.trim text) := by
  simp only [parseDecimalToRaw, if_neg hne, List.splitOn_eq_singleton hpoint, Checked.pow_of_lt hpow,
    MayPanic.orPanic_some, parseWhole]
  rfl

theorem parseDecimalToRaw_point {wholeStr fracStr : List Char}
    (htext : Text.trim text = wholeStr ++ '.' :: fracStr) (hwhole : '.' ∉ wholeStr)
    (hfrac : '.' ∉ fracStr) :
    parseDecimalToRaw text decimals =
      parseDecimalParts (Text.trim text) decimals wholeStr fracStr := by
  have hne : Text.trim text ≠ [] := by simp [htext]
  have hsplit : (Text.trim text).splitOn '.' = [wholeStr, fracStr] := by
    rw [htext, List.splitOn_append_cons_self_of_not_mem hwhole, List.splitOn_eq_singleton hfrac]
  simp only [parseDecimalToRaw, if_neg hne, hsplit]

private theorem parseDecimalToRaw_points {wholeStr fracStr : List Char}
    (htext : Text.trim text = wholeStr ++ '.' :: fracStr) (hwhole : '.' ∉ wholeStr)
    (hfrac : '.' ∈ fracStr) : ∃ e, parseDecimalToRaw text decimals = .err e := by
  have hne : Text.trim text ≠ [] := by simp [htext]
  obtain ⟨xs, ys, rfl, hxs⟩ := List.eq_append_cons_of_mem hfrac
  obtain ⟨zs, rest, hys⟩ := List.exists_cons_of_ne_nil (List.splitOn_ne_nil '.' ys)
  have hsplit : (Text.trim text).splitOn '.' = wholeStr :: xs :: zs :: rest := by
    rw [htext, List.splitOn_append_cons_self_of_not_mem hwhole,
      List.splitOn_append_cons_self_of_not_mem hxs, hys]
  simp only [parseDecimalToRaw, if_neg hne, hsplit]
  exact ⟨_, rfl⟩

end

/-- The digits behind the point, where there is room for a digit behind a sign. -/
def FracReads (width : ℕ) (fracStr ds : List Char) : Prop :=
  AllDigits ds ∧ fracStr.length ≤ width ∧
    ((fracStr = ds ∧ 0 < width) ∨ (fracStr = '+' :: ds ∧ 1 < width))

private theorem FracReads.byteLength {width : ℕ} {fracStr ds : List Char}
    (h : FracReads width fracStr ds) : Text.byteLength fracStr = fracStr.length := by
  obtain ⟨hds, -, ⟨rfl, -⟩ | ⟨rfl, -⟩⟩ := h
  · exact byteLength_digits hds
  · have hsize : '+'.utf8Size = 1 := rfl
    rw [Text.byteLength_cons, hsize, byteLength_digits hds, List.length_cons, Nat.add_comm]

private theorem FracReads.no_point {width : ℕ} {fracStr ds : List Char}
    (h : FracReads width fracStr ds) : '.' ∉ fracStr := by
  obtain ⟨hds, -, ⟨rfl, -⟩ | ⟨rfl, -⟩⟩ := h
  · exact hds.not_mem (by decide)
  · exact List.not_mem_cons_of_ne_of_not_mem (by decide) (hds.not_mem (by decide))

theorem FracReads.eq_of_allDigits {width : ℕ} {fracStr ds : List Char}
    (h : FracReads width fracStr ds) (hfrac : AllDigits fracStr) : fracStr = ds := by
  obtain ⟨-, -, ⟨rfl, -⟩ | ⟨rfl, -⟩⟩ := h
  · rfl
  · exact absurd List.mem_cons_self (hfrac.not_mem (c := '+') (by decide))

theorem FracReads.fromStr_padRight {width : ℕ} {fracStr ds : List Char}
    (h : FracReads width fracStr ds)
    (hlt : value ds * 10 ^ (width - fracStr.length) < u128Bound) :
    fromStr u128Bound (padRight width fracStr) =
      some (value ds * 10 ^ (width - fracStr.length)) := by
  obtain ⟨hds, hlen, hsign⟩ := h
  have hdigits (k : ℕ) : AllDigits (ds ++ List.replicate k '0') :=
    allDigits_append.mpr ⟨hds, allDigits_replicate k⟩
  have hne {k : ℕ} (hk : 0 < ds.length + k) : ds ++ List.replicate k '0' ≠ [] := by
    apply List.ne_nil_of_length_pos
    rw [List.length_append, List.length_replicate]
    exact hk
  unfold padRight
  rcases hsign with ⟨rfl, hwidth⟩ | ⟨rfl, hwidth⟩
  · rw [← value_padRight] at hlt ⊢
    exact fromStr_numeral ⟨hne (by omega), hdigits _⟩ hlt
  · rw [← value_padRight] at hlt ⊢
    rw [List.cons_append, fromStr_eq_some, withoutPlus_plus]
    refine ⟨⟨hne ?_, hdigits _⟩, rfl, hlt⟩
    rw [List.length_cons] at hlen ⊢
    omega

/-- What the padded digits can be. -/
theorem fracReads_of_fromStr {width n : ℕ} {fracStr : List Char}
    (hlen : Text.byteLength fracStr ≤ width)
    (h : fromStr u128Bound (padRight width fracStr) = some n) :
    ∃ ds, FracReads width fracStr ds ∧ value ds * 10 ^ (width - fracStr.length) = n := by
  obtain ⟨padded, ⟨hne, hpadded⟩, hvalue, -, heq⟩ := fromStr_cases h
  rcases heq with heq | heq
  · obtain ⟨hds, -⟩ := allDigits_append.mp (heq.symm ▸ hpadded : AllDigits (padRight width fracStr))
    rw [byteLength_digits hds] at hlen
    refine ⟨fracStr, ⟨hds, hlen, .inl ⟨rfl, ?_⟩⟩, ?_⟩
    · rcases Nat.eq_zero_or_pos width with rfl | hpos
      · rw [List.eq_nil_of_length_eq_zero (Nat.le_zero.mp hlen)] at heq
        exact absurd heq.symm hne
      · exact hpos
    · rw [← value_padRight, ← hvalue, ← heq]
      rfl
  · cases fracStr with
    | nil =>
      have hzeros : AllDigits (padRight width []) := allDigits_replicate _
      rw [heq] at hzeros
      exact absurd List.mem_cons_self (hzeros.not_mem (c := '+') (by decide))
    | cons c ds =>
      obtain ⟨rfl, hrest⟩ := List.cons.inj heq
      obtain ⟨hds, -⟩ := allDigits_append.mp (hrest.symm ▸ hpadded)
      have hsize : '+'.utf8Size = 1 := rfl
      rw [Text.byteLength_cons, hsize, byteLength_digits hds] at hlen
      refine ⟨ds, ⟨hds, ?_, .inr ⟨rfl, ?_⟩⟩, ?_⟩
      · rw [List.length_cons]
        omega
      · by_contra hwidth
        have hnil : ds = [] := List.eq_nil_of_length_eq_zero (by omega)
        have hzero : width - ('+' :: ds).length = 0 := by
          rw [List.length_cons]
          omega
        rw [hzero, hnil] at hrest
        exact hne hrest.symm
      · rw [← value_padRight, ← hvalue, ← hrest]
        rfl

private theorem FracReads.scaled_lt {width : ℕ} {fracStr ds : List Char}
    (h : FracReads width fracStr ds) : value ds * 10 ^ (width - fracStr.length) < 10 ^ width := by
  obtain ⟨hds, hlen, hsign⟩ := h
  have hle : ds.length ≤ fracStr.length := by
    rcases hsign with ⟨rfl, -⟩ | ⟨rfl, -⟩
    · exact Nat.le_refl _
    · exact Nat.le_succ _
  have hlt : value ds < 10 ^ fracStr.length :=
    Nat.lt_of_lt_of_le (value_lt hds) (Nat.pow_le_pow_right (by decide) hle)
  calc value ds * 10 ^ (width - fracStr.length)
      < 10 ^ fracStr.length * 10 ^ (width - fracStr.length) :=
        Nat.mul_lt_mul_of_pos_right hlt (Nat.pow_pos (by decide))
    _ = 10 ^ width := by rw [← Nat.pow_add, Nat.add_sub_cancel' hlen]

section
variable {s wholeStr fracStr : List Char} {decimals : UInt8}

/-- The result for the two sides of a point. -/
theorem parseDecimalParts_eq (hpow : 10 ^ decimals.toNat < u128Bound) {whole : ℕ} {frac : List Char}
    (hwhole : partValue wholeStr = some whole) (hfrac : FracReads decimals.toNat fracStr frac) :
    parseDecimalParts s decimals wholeStr fracStr =
      (.okOr .overflow (Checked.below u128Bound (whole * 10 ^ decimals.toNat +
          value frac * 10 ^ (decimals.toNat - fracStr.length))) >>=
        fun total => .ok (.ofNat 128 total)) := by
  have hlen : ¬ decimals.toNat < Text.byteLength fracStr := by
    rw [hfrac.byteLength]
    exact Nat.not_lt.mpr hfrac.2.1
  have hfits := Nat.lt_trans hfrac.scaled_lt hpow
  unfold parseDecimalParts
  dsimp only
  rw [hwhole, MayPanic.okOr_some, MayPanic.ok_bind, if_neg hlen, hfrac.fromStr_padRight hfits,
    MayPanic.okOr_some, MayPanic.ok_bind, Checked.pow_of_lt hpow, MayPanic.orPanic_some,
    MayPanic.ok_bind, ← Checked.mul_bind_add]
  cases Checked.mul u128Bound whole (10 ^ decimals.toNat) with
  | none => rfl
  | some shifted => rfl

theorem parseDecimalParts_eq_ok (hpow : 10 ^ decimals.toNat < u128Bound) {v : BitVec 128} :
    parseDecimalParts s decimals wholeStr fracStr = .ok v ↔
      ∃ whole frac, PartReads wholeStr whole ∧ FracReads decimals.toNat fracStr frac ∧
        value whole * 10 ^ decimals.toNat +
          value frac * 10 ^ (decimals.toNat - fracStr.length) < u128Bound ∧
        v = .ofNat 128 (value whole * 10 ^ decimals.toNat +
          value frac * 10 ^ (decimals.toNat - fracStr.length)) := by
  constructor
  · intro h
    have hparts := h
    unfold parseDecimalParts at hparts
    obtain ⟨n, hn, hparts⟩ := MayPanic.bind_eq_ok.mp hparts
    split at hparts
    · exact absurd hparts (MayPanic.err_ne_ok _ _)
    · next hlen =>
      obtain ⟨m, hm, -⟩ := MayPanic.bind_eq_ok.mp hparts
      have hn := MayPanic.okOr_eq_ok.mp hn
      obtain ⟨whole, hwhole, rfl, -⟩ := partValue_eq_some.mp hn
      obtain ⟨frac, hfrac, -⟩ := fracReads_of_fromStr (Nat.not_lt.mp hlen)
        (MayPanic.okOr_eq_ok.mp hm)
      rw [parseDecimalParts_eq hpow hn hfrac] at h
      obtain ⟨total, htotal, hv⟩ := MayPanic.bind_eq_ok.mp h
      obtain ⟨hlt, rfl⟩ := Checked.below_eq_some.mp (MayPanic.okOr_eq_ok.mp htotal)
      exact ⟨whole, frac, hwhole, hfrac, hlt, (MayPanic.ok_inj.mp hv).symm⟩
  · rintro ⟨whole, frac, hwhole, hfrac, hlt, rfl⟩
    have hwholeLt : value whole < u128Bound := by
      have hle := Nat.le_mul_of_pos_right (value whole) (Nat.pow_pos (n := decimals.toNat)
        (by decide : 0 < 10))
      omega
    rw [parseDecimalParts_eq hpow (partValue_eq_some.mpr ⟨whole, hwhole, rfl, hwholeLt⟩) hfrac,
      Checked.below_of_lt hlt]
    rfl

end

/-! ## The round trip -/

theorem exists_trimEndMatches (c : Char) (cs : List Char) :
    ∃ k, cs = Text.trimEndMatches c cs ++ List.replicate k c := by
  refine ⟨(cs.reverse.takeWhile (· == c)).length, ?_⟩
  have hrun : cs.reverse.takeWhile (· == c) =
      List.replicate (cs.reverse.takeWhile (· == c)).length c := by
    refine List.eq_replicate_iff.mpr ⟨rfl, fun d hd => ?_⟩
    simpa using List.mem_takeWhile_imp hd
  have hsplit := congrArg List.reverse (cs.reverse.takeWhile_append_dropWhile (p := (· == c)))
  rw [List.reverse_append, List.reverse_reverse, hrun, List.reverse_replicate] at hsplit
  exact hsplit.symm

theorem padRight_trimEndMatches (cs : List Char) :
    padRight cs.length (Text.trimEndMatches '0' cs) = cs := by
  obtain ⟨k, hk⟩ := exists_trimEndMatches '0' cs
  generalize Text.trimEndMatches '0' cs = digits at hk
  have hlen : cs.length - digits.length = k := by
    rw [hk, List.length_append, List.length_replicate, Nat.add_sub_cancel_left]
  unfold padRight
  rw [hlen, ← hk]

private theorem parseDecimalToRaw_display {decimals : UInt8}
    (hpow : 10 ^ decimals.toNat < u128Bound) {n : ℕ} (hlt : n * 10 ^ decimals.toNat < u128Bound) :
    parseDecimalToRaw (display n) decimals = .ok (.ofNat 128 (n * 10 ^ decimals.toNat)) := by
  have hnumeral := isNumeral_display n
  have htrim : Text.trim (display n) = display n :=
    Text.trim_of_trimmed (IsDecimal.whole hnumeral).trimmed
  have hpoint : '.' ∉ display n := hnumeral.2.not_mem (by decide)
  have hvalue : n < u128Bound := by
    have hle := Nat.le_mul_of_pos_right n (Nat.pow_pos (n := decimals.toNat) (by decide : 0 < 10))
    omega
  rw [parseDecimalToRaw_whole hpow (htrim.symm ▸ hnumeral.1) (htrim.symm ▸ hpoint), htrim]
  exact parseWhole_eq_ok.mpr ⟨n, fromStr_display hvalue, hlt, rfl⟩

/-- The digits behind the point of a fraction of so many decimals. -/
theorem length_padLeft_display {n width : ℕ} (hwidth : 0 < width) (h : n < 10 ^ width) :
    (padLeft width (display n)).length = width := by
  have hle := length_display_le hwidth h
  unfold padLeft
  rw [List.length_append, List.length_replicate]
  omega

private theorem allDigits_padLeft_display (width n : ℕ) : AllDigits (padLeft width (display n)) :=
  allDigits_append.mpr ⟨allDigits_replicate _, (isNumeral_display n).2⟩

private theorem parse_format_fraction {decimals : UInt8} (hpow : 10 ^ decimals.toNat < u128Bound)
    (hdecimals : 0 < decimals.toNat) {whole frac : ℕ} (hfrac : frac < 10 ^ decimals.toNat)
    (hlt : whole * 10 ^ decimals.toNat + frac < u128Bound) :
    parseDecimalToRaw (display whole ++ '.' ::
        Text.trimEndMatches '0' (padLeft decimals.toNat (display frac))) decimals =
      .ok (.ofNat 128 (whole * 10 ^ decimals.toNat + frac)) := by
  have hlen := length_padLeft_display hdecimals hfrac
  have hdigits := allDigits_padLeft_display decimals.toNat frac
  have hvalue : value (padLeft decimals.toNat (display frac)) = frac := by
    unfold padLeft
    rw [value_padLeft, value_display]
  generalize padLeft decimals.toNat (display frac) = padded at hlen hdigits hvalue ⊢
  have hpad : padRight decimals.toNat (Text.trimEndMatches '0' padded) = padded := by
    rw [← hlen]
    exact padRight_trimEndMatches padded
  have htrimmed : AllDigits (Text.trimEndMatches '0' padded) := by
    obtain ⟨k, hk⟩ := exists_trimEndMatches '0' padded
    rw [hk] at hdigits
    exact (allDigits_append.mp hdigits).1
  have htrimmedLen : (Text.trimEndMatches '0' padded).length ≤ decimals.toNat := by
    rw [← hlen]
    conv_rhs => rw [← hpad]
    unfold padRight
    rw [List.length_append]
    exact Nat.le_add_right _ _
  have hscaled : value (Text.trimEndMatches '0' padded) *
      10 ^ (decimals.toNat - (Text.trimEndMatches '0' padded).length) = frac := by
    rw [← value_padRight, ← hvalue]
    exact congrArg value hpad
  generalize Text.trimEndMatches '0' padded = digits at htrimmed htrimmedLen hscaled ⊢
  have hwhole := isNumeral_display whole
  have htrim : Text.trim (display whole ++ '.' :: digits) = display whole ++ '.' :: digits :=
    Text.trim_of_trimmed (IsDecimal.point hwhole.2 htrimmed (by simp [hwhole.1])).trimmed
  rw [parseDecimalToRaw_point htrim (hwhole.2.not_mem (by decide)) (htrimmed.not_mem (by decide))]
  refine (parseDecimalParts_eq_ok hpow).mpr ⟨display whole, digits, partReads_of_allDigits hwhole.2,
    ⟨htrimmed, htrimmedLen, .inl ⟨rfl, hdecimals⟩⟩, ?_, ?_⟩
  · rwa [value_display, hscaled]
  · rw [value_display, hscaled]

/-- The text of an amount is parsed to the amount. -/
theorem parse_formatRawWithDecimals {decimals : UInt8} (hpow : 10 ^ decimals.toNat < u128Bound)
    (raw : BitVec 128) : ∃ text, formatRawWithDecimals raw decimals = some text ∧
      parseDecimalToRaw text decimals = .ok raw := by
  have hraw : raw.toNat < u128Bound := raw.isLt
  have hofNat : BitVec.ofNat 128 raw.toNat = raw := by simp
  unfold formatRawWithDecimals
  by_cases hzero : decimals = 0
  · subst hzero
    refine ⟨display raw.toNat, if_pos rfl, ?_⟩
    have hone : 10 ^ (0 : UInt8).toNat = 1 := rfl
    rw [parseDecimalToRaw_display hpow (by rw [hone]; omega), hone, Nat.mul_one, hofNat]
  · have hdecimals : 0 < decimals.toNat := by
      apply Nat.pos_of_ne_zero
      exact fun h => hzero (UInt8.toNat_inj.mp h)
    have hdivide := Nat.div_add_mod' raw.toNat (10 ^ decimals.toNat)
    have hmod : raw.toNat % 10 ^ decimals.toNat < 10 ^ decimals.toNat :=
      Nat.mod_lt _ (Nat.pow_pos (by decide))
    rw [if_neg hzero, Checked.pow_of_lt hpow, Option.bind_eq_bind, Option.bind_some]
    by_cases hfrac : raw.toNat % 10 ^ decimals.toNat = 0
    · refine ⟨_, if_pos hfrac, ?_⟩
      rw [hfrac, Nat.add_zero] at hdivide
      rw [parseDecimalToRaw_display hpow (by omega), hdivide, hofNat]
    · refine ⟨_, if_neg hfrac, ?_⟩
      rw [parse_format_fraction hpow hdecimals hmod (by omega), hdivide, hofNat]

private theorem formatRawWithDecimals_overflow {decimals : UInt8}
    (hpow : u128Bound ≤ 10 ^ decimals.toNat) (raw : BitVec 128) :
    formatRawWithDecimals raw decimals = none := by
  have hzero : decimals ≠ 0 := by
    rintro rfl
    exact absurd hpow (by decide)
  unfold formatRawWithDecimals
  rw [if_neg hzero, Checked.pow_of_le hpow]
  rfl

namespace FtAmount

/-- The amount is formatted without an overflow and the text is parsed to the amount. -/
def RoundTrips (amount : FtAmount) : Prop :=
  ∃ text, amount.formatAmount = some text ∧ parse text amount.decimals amount.symbol = .ok amount

theorem not_roundTrips {amount : FtAmount} (h : ¬ amount.decimals.toNat ≤ 38) :
    amount.formatAmount = none ∧ ¬ amount.RoundTrips := by
  have hpow : u128Bound ≤ 10 ^ amount.decimals.toNat :=
    Nat.not_lt.mp fun hlt => h (ten_pow_lt_iff.mp hlt)
  have hnone : amount.formatAmount = none := by
    unfold formatAmount
    rw [formatRawWithDecimals_overflow hpow]
    rfl
  refine ⟨hnone, ?_⟩
  rintro ⟨text, htext, -⟩
  rw [hnone] at htext
  cases htext

/-- An amount is formatted and parsed back exactly when its decimals are at most 38. -/
theorem formatted_roundTrips_iff (amount : FtAmount) : amount.RoundTrips ↔ amount.decimals.toNat ≤ 38 := by
  constructor
  · intro h
    by_contra hdecimals
    exact (not_roundTrips hdecimals).2 h
  · intro hdecimals
    obtain ⟨text, hformat, hparse⟩ :=
      parse_formatRawWithDecimals (ten_pow_lt_iff.mpr hdecimals) amount.raw
    refine ⟨String.ofList text, ?_, ?_⟩
    · unfold formatAmount
      rw [hformat]
      rfl
    · unfold parse
      rw [String.toList_ofList, hparse]
      rfl

/-- With 39 decimals the power overflows. -/
theorem formatAmount_overflows :
    formatAmount ⟨1, 39, "TOKEN"⟩ = none ∧ ¬ RoundTrips ⟨1, 39, "TOKEN"⟩ :=
  not_roundTrips (by decide)

end FtAmount

/-! ## Which texts are parsed exactly -/

section
variable {ε α β : Type}

/-- A result is the value of the text, a numeral with at most so many digits behind its
point; and a numeral with digits behind its point, or with none, gives that value, or an
error if it is too large. -/
def DecimalExact (toNat : α → ℕ) (decimals : ℕ) (text : List Char) (result : MayPanic ε α) : Prop :=
  (∀ v, result = .ok v → ∃ whole frac, IsDecimal text whole frac ∧ frac.length ≤ decimals ∧
    toNat v * 10 ^ frac.length = value (whole ++ frac) * 10 ^ decimals) ∧
  ∀ whole frac, IsDecimal text whole frac → frac.length ≤ decimals → (text = whole ∨ frac ≠ []) →
    (value (whole ++ frac) * 10 ^ (decimals - frac.length) < u128Bound →
      ∃ v, result = .ok v ∧ toNat v = value (whole ++ frac) * 10 ^ (decimals - frac.length)) ∧
    (u128Bound ≤ value (whole ++ frac) * 10 ^ (decimals - frac.length) → ∃ e, result = .err e)

private theorem decimalExact_bind {toNat : β → ℕ} {make : α → β} {decimals : ℕ} {text : List Char}
    {result : MayPanic ε α} :
    DecimalExact toNat decimals text (result >>= fun v => .ok (make v)) ↔
      DecimalExact (toNat ∘ make) decimals text result := by
  have hok {w : β} : (result >>= fun v => MayPanic.ok (make v)) = .ok w ↔
      ∃ v, result = .ok v ∧ make v = w := by
    rw [MayPanic.bind_eq_ok]
    simp only [MayPanic.ok_inj]
  have herr : (∃ e, (result >>= fun v => MayPanic.ok (make v)) = .err e) ↔
      ∃ e, result = .err e := by
    rcases result with _ | e | v
    · exact iff_of_false nofun nofun
    · exact iff_of_true ⟨e, rfl⟩ ⟨e, rfl⟩
    · exact iff_of_false nofun nofun
  unfold DecimalExact
  simp only [herr, hok, Function.comp_apply]
  constructor
  · rintro ⟨hsound, hcomplete⟩
    refine ⟨fun v hv => hsound _ ⟨v, hv, rfl⟩, fun whole frac h₁ h₂ h₃ => ?_⟩
    refine ⟨fun hlt => ?_, (hcomplete whole frac h₁ h₂ h₃).2⟩
    obtain ⟨_, ⟨v, hv, rfl⟩, hvalue⟩ := (hcomplete whole frac h₁ h₂ h₃).1 hlt
    exact ⟨v, hv, hvalue⟩
  · rintro ⟨hsound, hcomplete⟩
    refine ⟨?_, fun whole frac h₁ h₂ h₃ => ?_⟩
    · rintro _ ⟨v, hv, rfl⟩
      exact hsound v hv
    · refine ⟨fun hlt => ?_, (hcomplete whole frac h₁ h₂ h₃).2⟩
      obtain ⟨v, hv, hvalue⟩ := (hcomplete whole frac h₁ h₂ h₃).1 hlt
      exact ⟨make v, ⟨v, hv, rfl⟩, hvalue⟩

/-- An error is exact for a text that is no numeral. -/
theorem decimalExact_err {toNat : α → ℕ} {decimals : ℕ} {text : List Char} {result : MayPanic ε α}
    (hresult : ∃ e, result = .err e) (h : ∀ whole frac, ¬ IsDecimal text whole frac) :
    DecimalExact toNat decimals text result := by
  obtain ⟨e, rfl⟩ := hresult
  exact ⟨fun v hv => absurd hv (MayPanic.err_ne_ok e v),
    fun whole frac hdecimal => absurd hdecimal (h whole frac)⟩

end

/-- A text that is read without being a numeral: it has a sign, or a point without digits. -/
def MisreadDecimal (decimals : ℕ) (text : List Char) : Prop :=
  Signed u128Bound (10 ^ decimals) text ∨
    ∃ wholeStr whole fracStr frac, text = wholeStr ++ '.' :: fracStr ∧ PartReads wholeStr whole ∧
      FracReads decimals fracStr frac ∧
      value whole * 10 ^ decimals + value frac * 10 ^ (decimals - fracStr.length) < u128Bound ∧
      ¬ (AllDigits wholeStr ∧ AllDigits fracStr ∧ wholeStr ++ fracStr ≠ [])

private theorem decimalExact_whole {decimals : UInt8} (hpow : 10 ^ decimals.toNat < u128Bound)
    {text : List Char} (hne : Text.trim text ≠ []) (hpoint : '.' ∉ Text.trim text) :
    DecimalExact BitVec.toNat decimals.toNat (Text.trim text) (parseDecimalToRaw text decimals) ↔
      ¬ MisreadDecimal decimals.toNat (Text.trim text) := by
  have hmisread : MisreadDecimal decimals.toNat (Text.trim text) ↔
      Signed u128Bound (10 ^ decimals.toNat) (Text.trim text) := by
    refine or_iff_left ?_
    rintro ⟨_, _, _, _, htext, -⟩
    exact hpoint (by simp [htext])
  have hnumber : NumberExact BitVec.toNat u128Bound ⟨"", 10 ^ decimals.toNat, false⟩ (Text.trim text)
      (parseWhole u128Bound (10 ^ decimals.toNat)
        (ParseAmountError.invalidNumber (String.ofList (Text.trim text))) .overflow (.ofNat 128)
        (Text.trim text)) ↔ ¬ Signed u128Bound (10 ^ decimals.toNat) (Text.trim text) :=
    numberExact_whole (Nat.pow_pos (by decide)) toNat_ofNat_u128 hpoint
  rw [hmisread, parseDecimalToRaw_whole hpow hne hpoint, ← hnumber]
  simp only [NumberExact, AmountUnit.reads_of_no_point hpoint]
  constructor
  · rintro ⟨hsound, hcomplete⟩
    constructor
    · intro v hv
      obtain ⟨whole, frac, hdecimal, -, hvalue⟩ := hsound v hv
      obtain ⟨hnumeral, rfl, rfl⟩ := hdecimal.of_no_point hpoint
      simp only [List.length_nil, Nat.pow_zero, Nat.mul_one, List.append_nil] at hvalue
      exact ⟨hnumeral, hvalue⟩
    · rintro n ⟨hnumeral, rfl⟩
      have h := hcomplete _ [] (.whole hnumeral) (Nat.zero_le _) (.inl rfl)
      simpa only [List.append_nil, List.length_nil, Nat.sub_zero] using h
  · rintro ⟨hsound, hcomplete⟩
    constructor
    · intro v hv
      obtain ⟨hnumeral, hvalue⟩ := hsound v hv
      exact ⟨_, [], .whole hnumeral, Nat.zero_le _, by simpa using hvalue⟩
    · intro whole frac hdecimal _ _
      obtain ⟨hnumeral, rfl, rfl⟩ := hdecimal.of_no_point hpoint
      simpa only [List.append_nil, List.length_nil, Nat.sub_zero] using hcomplete _ ⟨hnumeral, rfl⟩

theorem value_sides {decimals : ℕ} {whole frac : List Char} (h : frac.length ≤ decimals) :
    value (whole ++ frac) * 10 ^ (decimals - frac.length) =
      value whole * 10 ^ decimals + value frac * 10 ^ (decimals - frac.length) := by
  rw [value_append, Nat.add_mul, Nat.mul_assoc, ← Nat.pow_add, Nat.add_sub_cancel' h]

private theorem exists_parseDecimalParts_err {decimals : UInt8}
    (hpow : 10 ^ decimals.toNat < u128Bound) {s whole frac : List Char} (hwhole : AllDigits whole)
    (hfrac : FracReads decimals.toNat frac frac)
    (hle : u128Bound ≤ value whole * 10 ^ decimals.toNat +
      value frac * 10 ^ (decimals.toNat - frac.length)) :
    ∃ e, parseDecimalParts s decimals whole frac = .err e := by
  cases hinteger : partValue whole with
  | none =>
    unfold parseDecimalParts
    dsimp only
    rw [hinteger]
    exact ⟨_, rfl⟩
  | some n =>
    obtain ⟨ds, hds, rfl, -⟩ := partValue_eq_some.mp hinteger
    obtain rfl := hds.eq_of_allDigits hwhole
    rw [parseDecimalParts_eq hpow hinteger hfrac, Checked.below_of_le hle]
    exact ⟨_, rfl⟩

private theorem decimalExact_point {decimals : UInt8} (hpow : 10 ^ decimals.toNat < u128Bound)
    {text wholeStr fracStr : List Char} (htext : Text.trim text = wholeStr ++ '.' :: fracStr)
    (hwhole : '.' ∉ wholeStr) (hfrac : '.' ∉ fracStr) :
    DecimalExact BitVec.toNat decimals.toNat (Text.trim text) (parseDecimalToRaw text decimals) ↔
      ¬ MisreadDecimal decimals.toNat (Text.trim text) := by
  rw [parseDecimalToRaw_point htext hwhole hfrac]
  generalize Text.trim text = t at htext ⊢
  constructor
  · rintro ⟨hsound, -⟩ (hsigned | ⟨ws, whole, fs, frac, heq, hw, hf, hlt, hnot⟩)
    · exact hsigned.no_point (by simp [htext])
    · obtain ⟨rfl, rfl⟩ := sides_unique hwhole hw.no_point (htext.symm.trans heq)
      obtain ⟨whole', frac', hdecimal, -⟩ := hsound _
        ((parseDecimalParts_eq_ok hpow).mpr ⟨whole, frac, hw, hf, hlt, rfl⟩)
      obtain ⟨rfl, rfl, hdigits⟩ := hdecimal.of_point htext hwhole
      exact hnot hdigits
  · intro hmisread
    constructor
    · intro v hv
      obtain ⟨whole, frac, hw, hf, hlt, rfl⟩ := (parseDecimalParts_eq_ok hpow).mp hv
      by_cases hproper : AllDigits wholeStr ∧ AllDigits fracStr ∧ wholeStr ++ fracStr ≠ []
      · obtain ⟨hwd, hfd, hne⟩ := hproper
        obtain rfl := hw.eq_of_allDigits hwd
        obtain rfl := hf.eq_of_allDigits hfd
        refine ⟨wholeStr, fracStr, htext ▸ .point hwd hfd hne, hf.2.1, ?_⟩
        rw [toNat_ofNat_u128 _ hlt, ← value_sides hf.2.1, Nat.mul_assoc, ← Nat.pow_add,
          Nat.sub_add_cancel hf.2.1]
      · exact absurd (.inr ⟨wholeStr, whole, fracStr, frac, htext, hw, hf, hlt, hproper⟩) hmisread
    · intro whole frac hdecimal hlen hform
      obtain ⟨rfl, rfl, hwd, hfd, hne⟩ := hdecimal.of_point htext hwhole
      have hfrac : frac ≠ [] := by
        refine hform.resolve_left fun heq => hwhole ?_
        rw [← heq, htext]
        simp
      have hf : FracReads decimals.toNat frac frac :=
        ⟨hfd, hlen, .inl ⟨rfl, Nat.lt_of_lt_of_le (List.length_pos_iff.mpr hfrac) hlen⟩⟩
      have hw := partReads_of_allDigits hwd
      rw [value_sides hlen]
      constructor
      · intro hlt
        exact ⟨_, (parseDecimalParts_eq_ok hpow).mpr ⟨whole, frac, hw, hf, hlt, rfl⟩,
          toNat_ofNat_u128 _ hlt⟩
      · exact exists_parseDecimalParts_err hpow hwd hf

/-- The parser is exact on a text when the text is not misread. -/
theorem decimalExact_iff {decimals : UInt8} (hpow : 10 ^ decimals.toNat < u128Bound)
    (text : List Char) :
    DecimalExact BitVec.toNat decimals.toNat (Text.trim text) (parseDecimalToRaw text decimals) ↔
      ¬ MisreadDecimal decimals.toNat (Text.trim text) := by
  rcases point_cases (Text.trim text) with hpoint | ⟨wholeStr, fracStr, htext, hwhole⟩
  · by_cases hne : Text.trim text = []
    · have herr : ∃ e, parseDecimalToRaw text decimals = .err e := by
        unfold parseDecimalToRaw
        exact ⟨_, if_pos hne⟩
      refine iff_of_true (decimalExact_err herr fun whole frac h => h.ne_nil hne) ?_
      rw [hne]
      rintro (⟨_, h, -⟩ | ⟨_, _, _, _, h, -⟩)
      · cases h
      · simp at h
    · exact decimalExact_whole hpow hne hpoint
  · by_cases hfrac : '.' ∈ fracStr
    · have hnot {ws fs : List Char} (hw : '.' ∉ ws) (hf : '.' ∉ fs) :
          Text.trim text ≠ ws ++ '.' :: fs := by
        intro h
        obtain ⟨rfl, rfl⟩ := sides_unique hwhole hw (htext.symm.trans h)
        exact hf hfrac
      refine iff_of_true (decimalExact_err (parseDecimalToRaw_points htext hwhole hfrac) ?_) ?_
      · intro whole frac h
        obtain ⟨-, rfl, -, hf, -⟩ := h.of_point htext hwhole
        exact hf.not_mem (by decide) hfrac
      · rintro (h | ⟨ws, whole, fs, frac, h, hw, hf, -⟩)
        · exact h.no_point (by simp [htext])
        · exact hnot hw.no_point hf.no_point h
    · exact decimalExact_point hpow htext hwhole hfrac

namespace FtAmount

/-- The raw amount that is parsed is the value of the text, whatever the symbol. -/
def ParsedExactly (text : String) (decimals : UInt8) : Prop :=
  ∀ symbol, DecimalExact (fun amount : FtAmount => amount.raw.toNat) decimals.toNat
    (Text.trim text.toList) (parse text decimals symbol)

theorem parsedExactly_iff_decimalExact {text : String} {decimals : UInt8} :
    ParsedExactly text decimals ↔ DecimalExact BitVec.toNat decimals.toNat
      (Text.trim text.toList) (parseDecimalToRaw text.toList decimals) := by
  have hsymbol (symbol : String) :
      DecimalExact (fun amount : FtAmount => amount.raw.toNat) decimals.toNat
          (Text.trim text.toList) (parse text decimals symbol) ↔
        DecimalExact BitVec.toNat decimals.toNat (Text.trim text.toList)
          (parseDecimalToRaw text.toList decimals) :=
    decimalExact_bind
  constructor
  · exact fun h => (hsymbol "").mp (h "")
  · exact fun h symbol => (hsymbol symbol).mpr h

private theorem not_parsedExactly {text : String} {decimals : UInt8}
    (hpow : 10 ^ decimals.toNat < u128Bound)
    (h : MisreadDecimal decimals.toNat (Text.trim text.toList)) : ¬ ParsedExactly text decimals := by
  rw [parsedExactly_iff_decimalExact, decimalExact_iff hpow]
  exact fun hnot => hnot h

/-- An amount is parsed exactly when its text is not misread. -/
theorem parsedExactly_iff (text : String) (decimals : UInt8)
    (hpow : 10 ^ decimals.toNat < 2 ^ 128) :
    ParsedExactly text decimals ↔ ¬ MisreadDecimal decimals.toNat (Text.trim text.toList) :=
  parsedExactly_iff_decimalExact.trans (decimalExact_iff hpow text.toList)

/-- A text with digits on both sides of its point. -/
theorem parsedExactly_sample : ParsedExactly "1.5" 6 := by
  refine (parsedExactly_iff "1.5" 6 (by decide)).mpr ?_
  have htext : Text.trim "1.5".toList = ['1', '.', '5'] := by decide
  rw [htext]
  rintro (⟨_, h, -⟩ | ⟨ws, _, fs, _, h, hw, -, -, hnot⟩)
  · cases h
  · have hparts : ['1'] ++ '.' :: ['5'] = ws ++ '.' :: fs := h
    obtain ⟨rfl, rfl⟩ := sides_unique (by decide) hw.no_point hparts
    exact hnot ⟨by decide, by decide, by decide⟩

/-- A sign behind the point takes the place of a digit, and a point alone is zero. -/
theorem parse_misreads :
    parse "1.+5" 2 "TOKEN" = .ok ⟨105, 2, "TOKEN"⟩ ∧
      parse "+5" 2 "TOKEN" = .ok ⟨500, 2, "TOKEN"⟩ ∧ parse "." 2 "TOKEN" = .ok ⟨0, 2, "TOKEN"⟩ ∧
      ¬ ParsedExactly "1.+5" 2 := by
  refine ⟨by decide +kernel, by decide +kernel, by decide +kernel, ?_⟩
  refine not_parsedExactly (ten_pow_lt_iff.mpr (by decide)) (.inr ?_)
  exact ⟨['1'], ['1'], ['+', '5'], ['5'], by decide, partReads_of_allDigits (by decide),
    ⟨by decide, by decide, .inr ⟨rfl, by decide⟩⟩, by decide, fun h => absurd h.2.1 (by decide)⟩

end FtAmount
end NearKit
