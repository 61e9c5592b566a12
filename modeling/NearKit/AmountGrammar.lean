import NearKit.AmountTexts

/-!
# The grammar of amounts and of gas

What a text of a number, white space and a unit denotes, and the texts on which the parsers
keep to it. They also read numbers with a plus sign, a point without digits and a fraction
with anything behind its 24th digit, and they ask for a space in front of the unit.
-/
namespace NearKit
open Numeral Amount

/-! ## What a text denotes -/

/-- A unit, its size in the smallest unit, and whether numbers with a point go with it. -/
structure AmountUnit where
  name : String
  size : ℕ
  pointed : Bool
  deriving DecidableEq

def nearUnits : List AmountUnit :=
  [⟨"NEAR", yoctoPerNear, true⟩, ⟨"near", yoctoPerNear, true⟩,
    ⟨"milliNEAR", yoctoPerMillinear, false⟩, ⟨"mNEAR", yoctoPerMillinear, false⟩,
    ⟨"yoctoNEAR", 1, false⟩, ⟨"yocto", 1, false⟩]

def gasUnits : List AmountUnit :=
  [⟨"Tgas", gasPerTgas, false⟩, ⟨"tgas", gasPerTgas, false⟩, ⟨"TGas", gasPerTgas, false⟩,
    ⟨"Ggas", gasPerGgas, false⟩, ⟨"ggas", gasPerGgas, false⟩, ⟨"GGas", gasPerGgas, false⟩,
    ⟨"gas", 1, false⟩]

/-- A decimal numeral, with its digits before and after the point. -/
inductive IsDecimal : List Char → List Char → List Char → Prop where
  | whole {ds : List Char} (h : IsNumeral ds) : IsDecimal ds ds []
  | point {whole frac : List Char} (hwhole : AllDigits whole) (hfrac : AllDigits frac)
      (hne : whole ++ frac ≠ []) : IsDecimal (whole ++ '.' :: frac) whole frac

/-- The decimal number times a size, rounded toward zero. -/
def scaled (size : ℕ) (whole frac : List Char) : ℕ :=
  value (whole ++ frac) * size / 10 ^ frac.length

/-- The numeral in front of the unit stands for the number. -/
def AmountUnit.Reads (unit : AmountUnit) (text : List Char) (n : ℕ) : Prop :=
  ∃ whole frac, IsDecimal text whole frac ∧ (unit.pointed = true ∨ '.' ∉ text) ∧
    n = scaled unit.size whole frac

/-- A numeral, white space and one of the units, with white space around them. -/
def Denotes (units : List AmountUnit) (text : List Char) (n : ℕ) : Prop :=
  ∃ unit ∈ units, ∃ pre numeral sep post,
    text = pre ++ numeral ++ sep ++ unit.name.toList ++ post ∧ Text.AllWhite pre ∧
    Text.AllWhite sep ∧ sep ≠ [] ∧ Text.AllWhite post ∧ unit.Reads numeral n

section
variable {ε α : Type} (toNat : α → ℕ) (bound : ℕ)

/-- The result is the number that the numeral stands for, or an error if the number is
too large. -/
def NumberExact (unit : AmountUnit) (text : List Char) (result : MayPanic ε α) : Prop :=
  (∀ v, result = .ok v → unit.Reads text (toNat v)) ∧
    ∀ n, unit.Reads text n →
      (n < bound → ∃ v, result = .ok v ∧ toNat v = n) ∧ (bound ≤ n → ∃ e, result = .err e)

/-- A result is what the text denotes, and a text that denotes a number gives that number,
or an error if the number is too large. -/
def ReadExactly (units : List AmountUnit) (text : List Char) (result : MayPanic ε α) : Prop :=
  (∀ v, result = .ok v → Denotes units text (toNat v)) ∧
    ∀ n, Denotes units text n →
      (n < bound → ∃ v, result = .ok v ∧ toNat v = n) ∧ (bound ≤ n → ∃ e, result = .err e)

end

/-- The unit follows other white space than a space, or the number before it is misread. -/
def Misread (bound : ℕ) (units : List AmountUnit) (misread : AmountUnit → List Char → Prop)
    (text : List Char) : Prop :=
  ∃ unit ∈ units, ∃ value w, Text.trim text = value ++ w :: unit.name.toList ∧
    Text.isWhitespace w = true ∧
    (w = ' ' ∧ misread unit (Text.trim value) ∨
      w ≠ ' ' ∧ ∃ n, unit.Reads (Text.trim value) n ∧ n < bound)

/-! ## Numerals -/

private theorem not_isWhitespace_of_isDigit {c : Char} (h : c.isDigit = true) :
    Text.isWhitespace c = false := by
  obtain ⟨hlo, hhi⟩ := Char.isDigit_iff_toNat.mp h
  unfold Text.isWhitespace
  generalize c.toNat = n at hlo hhi
  have hlo : 48 ≤ n := hlo
  have hhi : n ≤ 57 := hhi
  simp only [Bool.or_eq_false_iff, Bool.and_eq_false_iff, decide_eq_false_iff_not, beq_eq_false_iff_ne]
  omega

theorem IsDecimal.ne_nil {text whole frac : List Char} (h : IsDecimal text whole frac) :
    text ≠ [] := by
  cases h with
  | whole h => exact h.1
  | point => simp

theorem IsDecimal.trimmed {text whole frac : List Char} (h : IsDecimal text whole frac) :
    Text.Trimmed text := by
  apply Text.trimmed_of_noWhite
  cases h with
  | whole h => exact fun c hc => not_isWhitespace_of_isDigit (h.2 c hc)
  | point hwhole hfrac =>
    intro c hc
    rcases List.mem_append.mp hc with hc | hc
    · exact not_isWhitespace_of_isDigit (hwhole c hc)
    · rcases List.mem_cons.mp hc with rfl | hc
      · rfl
      · exact not_isWhitespace_of_isDigit (hfrac c hc)

theorem AmountUnit.reads_of_no_point {unit : AmountUnit} {text : List Char} {n : ℕ}
    (h : '.' ∉ text) : unit.Reads text n ↔ IsNumeral text ∧ n = value text * unit.size := by
  constructor
  · rintro ⟨whole, frac, hdecimal, -, rfl⟩
    cases hdecimal with
    | whole hds =>
      refine ⟨hds, ?_⟩
      simp [scaled]
    | point => exact absurd (by simp) h
  · rintro ⟨hds, rfl⟩
    refine ⟨text, [], .whole hds, .inr h, ?_⟩
    simp [scaled]

theorem IsDecimal.of_no_point {text whole frac : List Char} (h : IsDecimal text whole frac)
    (hpoint : '.' ∉ text) : IsNumeral text ∧ whole = text ∧ frac = [] := by
  cases h with
  | whole h => exact ⟨h, rfl, rfl⟩
  | point => exact absurd (by simp) hpoint

/-- The digits around the first point. -/
theorem IsDecimal.of_point {text whole frac wholeStr fracStr : List Char}
    (h : IsDecimal text whole frac) (htext : text = wholeStr ++ '.' :: fracStr)
    (hpoint : '.' ∉ wholeStr) :
    whole = wholeStr ∧ frac = fracStr ∧ AllDigits whole ∧ AllDigits frac ∧ whole ++ frac ≠ [] := by
  cases h with
  | whole h => exact absurd (by simp [htext]) (AllDigits.not_mem h.2 (c := '.') (by decide))
  | point hwhole hfrac hne =>
    obtain ⟨rfl, rfl⟩ := sides_unique (hwhole.not_mem (by decide)) hpoint htext
    exact ⟨rfl, rfl, hwhole, hfrac, hne⟩

/-! ## Units -/

def IsWord (name : String) : Prop :=
  name.toList ≠ [] ∧ ∀ c ∈ name.toList, Text.isWhitespace c = false

instance (name : String) : Decidable (IsWord name) :=
  @instDecidableAnd _ _ inferInstance (List.decidableBAll _ _)

private theorem denotes_iff {units : List AmountUnit} (hnames : ∀ u ∈ units, IsWord u.name)
    {text : List Char} {n : ℕ} :
    Denotes units text n ↔ ∃ unit ∈ units, ∃ value w,
      Text.trim text = value ++ w :: unit.name.toList ∧ Text.isWhitespace w = true ∧
        unit.Reads (Text.trim value) n := by
  constructor
  · rintro ⟨unit, hunit, pre, numeral, sep, post, rfl, hpre, hsep, hne, hpost, hreads⟩
    obtain ⟨hname, hword⟩ := hnames unit hunit
    have ⟨whole, frac, hdecimal, _⟩ := hreads
    obtain ⟨sep', w, rfl⟩ := (List.eq_nil_or_concat' sep).resolve_left hne
    obtain ⟨hsep', hw⟩ := List.forall_mem_append.mp hsep
    refine ⟨unit, hunit, numeral ++ sep', w, ?_, hw w List.mem_cons_self, ?_⟩
    · have htrimmed := hdecimal.trimmed.append hdecimal.ne_nil (Text.trimmed_of_noWhite hword) hname
        (sep' ++ [w])
      have htrim := Text.trim_eq hpre htrimmed hpost
      simp only [List.append_assoc] at htrim ⊢
      exact htrim
    · have htrim : Text.trim ([] ++ numeral ++ sep') = numeral :=
        Text.trim_eq nofun hdecimal.trimmed hsep'
      rw [List.nil_append] at htrim
      rw [htrim]
      exact hreads
  · rintro ⟨unit, hunit, value, w, htext, hw, hreads⟩
    obtain ⟨pre, post, htrim, hpre, hpost, -⟩ := Text.exists_trim text
    obtain ⟨pre', post', htrim', hpre', hpost', -⟩ := Text.exists_trim value
    refine ⟨unit, hunit, pre ++ pre', Text.trim value, post' ++ [w], post, ?_, hpre.append hpre',
      hpost'.append (List.forall_mem_singleton.mpr hw), by simp, hpost, hreads⟩
    rw [htrim, htext]
    generalize Text.trim value = numeral at htrim'
    rw [htrim']
    simp only [List.append_assoc, List.cons_append, List.nil_append]

/-- The word behind the last white space, and what is in front of it. -/
theorem unit_unique {units : List AmountUnit} (hnames : ∀ u ∈ units, IsWord u.name)
    (hdistinct : ∀ u ∈ units, ∀ v ∈ units, u.name = v.name → u = v) {u v : AmountUnit}
    (hu : u ∈ units) (hv : v ∈ units) {xs ys : List Char} {a b : Char}
    (ha : Text.isWhitespace a = true) (hb : Text.isWhitespace b = true)
    (h : xs ++ a :: u.name.toList = ys ++ b :: v.name.toList) : u = v ∧ xs = ys ∧ a = b := by
  have hword {w : AmountUnit} (hw : w ∈ units) :
      ∀ c ∈ w.name.toList, ¬ Text.isWhitespace c = true := by
    intro c hc
    rw [(hnames w hw).2 c hc]
    exact Bool.false_ne_true
  obtain ⟨hxs, hab, hname⟩ := Text.append_cons_inj_of_last (p := (Text.isWhitespace · = true)) ha hb
    (hword hu) (hword hv) h
  exact ⟨hdistinct u hu v hv (String.toList_inj.mp hname), hxs, hab⟩

section
variable {ε α : Type} {toNat : α → ℕ} {bound : ℕ}

/-- A failed reading is exact when no number that fits is denoted. -/
theorem numberExact_err {unit : AmountUnit} {text : List Char} {result : MayPanic ε α} {e : ε}
    (h : result = .err e) :
    NumberExact toNat bound unit text result ↔ ¬ ∃ n, unit.Reads text n ∧ n < bound := by
  subst h
  constructor
  · rintro ⟨-, hexact⟩ ⟨n, hreads, hlt⟩
    obtain ⟨v, hv, -⟩ := (hexact n hreads).1 hlt
    exact MayPanic.err_ne_ok e v hv
  · intro hnone
    refine ⟨fun v hv => absurd hv (MayPanic.err_ne_ok e v), fun n hreads => ⟨fun hlt => ?_, ?_⟩⟩
    · exact absurd ⟨n, hreads, hlt⟩ hnone
    · exact fun _ => ⟨e, rfl⟩

/-- A parser that finds the unit behind a space and reads the number before it is exact on
a text when the text is not misread. -/
theorem readExactly_iff {units : List AmountUnit} (hnames : ∀ u ∈ units, IsWord u.name)
    (hdistinct : ∀ u ∈ units, ∀ v ∈ units, u.name = v.name → u = v)
    {misread : AmountUnit → List Char → Prop} {text : List Char} {result : MayPanic ε α}
    (hknown : ∀ u ∈ units, ∀ value, Text.trim text = value ++ ' ' :: u.name.toList →
      (NumberExact toNat bound u (Text.trim value) result ↔ ¬ misread u (Text.trim value)))
    (hunknown : (∀ u ∈ units, ∀ value, Text.trim text ≠ value ++ ' ' :: u.name.toList) →
      ∃ e, result = .err e) :
    ReadExactly toNat bound units text result ↔ ¬ Misread bound units misread text := by
  by_cases hunit : ∃ u ∈ units, ∃ value w, Text.trim text = value ++ w :: u.name.toList ∧
      Text.isWhitespace w = true
  · obtain ⟨u, hu, value, w, htext, hw⟩ := hunit
    have hdenotes (n : ℕ) : Denotes units text n ↔ u.Reads (Text.trim value) n := by
      rw [denotes_iff hnames]
      constructor
      · rintro ⟨u', hu', value', w', htext', hw', hreads⟩
        obtain ⟨rfl, rfl, rfl⟩ := unit_unique hnames hdistinct hu' hu hw' hw (htext'.symm.trans htext)
        exact hreads
      · exact fun hreads => ⟨u, hu, value, w, htext, hw, hreads⟩
    have hexact : ReadExactly toNat bound units text result ↔
        NumberExact toNat bound u (Text.trim value) result := by
      simp only [ReadExactly, NumberExact, hdenotes]
    have hmisread : Misread bound units misread text ↔
        (w = ' ' ∧ misread u (Text.trim value) ∨
          w ≠ ' ' ∧ ∃ n, u.Reads (Text.trim value) n ∧ n < bound) := by
      constructor
      · rintro ⟨u', hu', value', w', htext', hw', h⟩
        obtain ⟨rfl, rfl, rfl⟩ := unit_unique hnames hdistinct hu' hu hw' hw (htext'.symm.trans htext)
        exact h
      · exact fun h => ⟨u, hu, value, w, htext, hw, h⟩
    rw [hexact, hmisread]
    by_cases hspace : w = ' '
    · rw [hknown u hu value (hspace ▸ htext)]
      simp [hspace]
    · obtain ⟨e, he⟩ := hunknown fun u' hu' value' htext' =>
        hspace (unit_unique hnames hdistinct hu hu' hw rfl (htext.symm.trans htext')).2.2
      rw [numberExact_err he]
      simp [hspace]
  · have hnone (n : ℕ) : ¬ Denotes units text n := by
      rw [denotes_iff hnames]
      rintro ⟨u, hu, value, w, htext, hw, -⟩
      exact hunit ⟨u, hu, value, w, htext, hw⟩
    obtain ⟨e, rfl⟩ := hunknown fun u hu value htext => hunit ⟨u, hu, value, ' ', htext, rfl⟩
    refine iff_of_true ⟨fun v hv => absurd hv (MayPanic.err_ne_ok e v), ?_⟩ ?_
    · exact fun n h => absurd h (hnone n)
    · rintro ⟨u, hu, value, w, htext, hw, -⟩
      exact hunit ⟨u, hu, value, w, htext, hw⟩

/-! ## Whole numbers -/

/-- A plus sign in front of a number that fits. -/
def Signed (bound size : ℕ) (text : List Char) : Prop :=
  ∃ ds, text = '+' :: ds ∧ IsNumeral ds ∧ value ds * size < bound

theorem parseWhole_eq_ok {size : ℕ} {invalid overflow : ε} {make : ℕ → α} {text : List Char} {v : α} :
    parseWhole bound size invalid overflow make text = .ok v ↔
      ∃ n, fromStr bound text = some n ∧ n * size < bound ∧ make (n * size) = v := by
  unfold parseWhole
  constructor
  · intro h
    obtain ⟨n, hn, h⟩ := MayPanic.bind_eq_ok.mp h
    obtain ⟨total, htotal, h⟩ := MayPanic.bind_eq_ok.mp h
    have hmul := MayPanic.okOr_eq_ok.mp htotal
    simp only [Checked.mul, Checked.below, Option.ite_none_right_eq_some, Option.some.injEq] at hmul
    obtain ⟨hlt, rfl⟩ := hmul
    exact ⟨n, MayPanic.okOr_eq_ok.mp hn, hlt, MayPanic.ok_inj.mp h⟩
  · rintro ⟨n, hn, hlt, rfl⟩
    rw [hn, MayPanic.okOr_some, MayPanic.ok_bind, Checked.mul_of_lt hlt]
    rfl

theorem parseWhole_cases (size : ℕ) (invalid overflow : ε) (make : ℕ → α) (text : List Char) :
    (∃ v, parseWhole bound size invalid overflow make text = .ok v) ∨
      ∃ e, parseWhole bound size invalid overflow make text = .err e := by
  rcases h : parseWhole bound size invalid overflow make text with _ | e | v
  · exact absurd h (parseWhole_ne_panic _ _ _ _ _ _)
  · exact .inr ⟨e, rfl⟩
  · exact .inl ⟨v, rfl⟩

theorem numberExact_whole {unit : AmountUnit} {invalid overflow : ε} {make : ℕ → α}
    {text : List Char} (hsize : 0 < unit.size) (hmake : ∀ n < bound, toNat (make n) = n)
    (hpoint : '.' ∉ text) :
    NumberExact toNat bound unit text (parseWhole bound unit.size invalid overflow make text) ↔
      ¬ Signed bound unit.size text := by
  constructor
  · rintro ⟨hsound, -⟩ ⟨ds, rfl, hds, hlt⟩
    have hvalue : value ds < bound := Nat.lt_of_le_of_lt (Nat.le_mul_of_pos_right _ hsize) hlt
    have hfrom : fromStr bound ('+' :: ds) = some (value ds) := by
      rw [fromStr_eq_some, withoutPlus_plus]
      exact ⟨hds, rfl, hvalue⟩
    have hreads := hsound _ (parseWhole_eq_ok.mpr ⟨_, hfrom, hlt, rfl⟩)
    have hnumeral := ((AmountUnit.reads_of_no_point hpoint).mp hreads).1
    exact hnumeral.2.not_mem (by decide) List.mem_cons_self
  · intro hsigned
    constructor
    · intro v hv
      obtain ⟨n, hfrom, hlt, rfl⟩ := parseWhole_eq_ok.mp hv
      obtain ⟨ds, hds, rfl, -, rfl | rfl⟩ := fromStr_cases hfrom
      · exact (AmountUnit.reads_of_no_point hpoint).mpr ⟨hds, hmake _ hlt⟩
      · exact absurd ⟨ds, rfl, hds, hlt⟩ hsigned
    · intro n hreads
      obtain ⟨hds, rfl⟩ := (AmountUnit.reads_of_no_point hpoint).mp hreads
      constructor
      · intro hlt
        have hvalue : value text < bound := Nat.lt_of_le_of_lt (Nat.le_mul_of_pos_right _ hsize) hlt
        exact ⟨_, parseWhole_eq_ok.mpr ⟨_, fromStr_numeral hds hvalue, hlt, rfl⟩, hmake _ hlt⟩
      · intro hle
        refine (parseWhole_cases _ _ _ _ _).resolve_left ?_
        rintro ⟨v, hv⟩
        obtain ⟨n, hfrom, hlt, -⟩ := parseWhole_eq_ok.mp hv
        obtain ⟨hnumeral, rfl, -⟩ := fromStr_eq_some.mp hfrom
        rw [withoutPlus_of_allDigits hds.2] at hlt
        omega

theorem Signed.no_point {size : ℕ} {text : List Char} (h : Signed bound size text) :
    '.' ∉ text := by
  obtain ⟨ds, rfl, hds, -⟩ := h
  exact List.not_mem_cons_of_ne_of_not_mem (by decide) (hds.2.not_mem (by decide))

private theorem fromStr_of_point {text : List Char} (h : '.' ∈ text) :
    fromStr bound text = none := by
  rw [Option.eq_none_iff_forall_ne_some]
  intro n hn
  obtain ⟨ds, hds, -, -, rfl | rfl⟩ := fromStr_cases hn
  · exact hds.2.not_mem (by decide) h
  · exact hds.2.not_mem (by decide) (List.mem_of_ne_of_mem (by decide) h)

theorem numberExact_unpointed {unit : AmountUnit} {invalid overflow : ε} {make : ℕ → α}
    {text : List Char} (hpointed : unit.pointed = false) (hsize : 0 < unit.size)
    (hmake : ∀ n < bound, toNat (make n) = n) :
    NumberExact toNat bound unit text (parseWhole bound unit.size invalid overflow make text) ↔
      ¬ Signed bound unit.size text := by
  by_cases hpoint : '.' ∈ text
  · have herr : parseWhole bound unit.size invalid overflow make text = .err invalid := by
      unfold parseWhole
      rw [fromStr_of_point hpoint]
      rfl
    rw [numberExact_err herr]
    refine iff_of_true ?_ fun h => h.no_point hpoint
    rintro ⟨n, ⟨whole, frac, -, hp | hp, -⟩, -⟩
    · rw [hpointed] at hp
      cases hp
    · exact hp hpoint
  · exact numberExact_whole hsize hmake hpoint

end

/-! ## Numbers with a point -/

namespace Amount

/-- The digits of one side of a point, with or without a sign. -/
def PartReads (part ds : List Char) : Prop :=
  AllDigits ds ∧ (part = ds ∨ (ds ≠ [] ∧ part = '+' :: ds))

theorem partValue_eq_some {part : List Char} {n : ℕ} :
    partValue part = some n ↔ ∃ ds, PartReads part ds ∧ value ds = n ∧ n < u128Bound := by
  have hpos : 0 < u128Bound := Nat.lt_trans (by decide) ten_pow_lt_u128Bound
  unfold partValue
  by_cases hnil : part = []
  · rw [if_pos hnil]
    constructor
    · intro h
      cases h
      exact ⟨[], ⟨allDigits_nil, .inl hnil⟩, rfl, hpos⟩
    · rintro ⟨ds, ⟨-, rfl | ⟨-, rfl⟩⟩, rfl, -⟩
      · rw [hnil]
        rfl
      · cases hnil
  · rw [if_neg hnil]
    constructor
    · intro h
      obtain ⟨ds, hds, hvalue, hlt, heq⟩ := fromStr_cases h
      exact ⟨ds, ⟨hds.2, heq.imp_right fun h => ⟨hds.1, h⟩⟩, hvalue, hlt⟩
    · rintro ⟨ds, ⟨hds, rfl | ⟨hne, rfl⟩⟩, rfl, hlt⟩
      · exact fromStr_numeral ⟨hnil, hds⟩ hlt
      · rw [fromStr_eq_some, withoutPlus_plus]
        exact ⟨⟨hne, hds⟩, rfl, hlt⟩

theorem PartReads.no_point {part ds : List Char} (h : PartReads part ds) : '.' ∉ part := by
  rcases h with ⟨hds, rfl | ⟨-, rfl⟩⟩
  · exact hds.not_mem (by decide)
  · exact List.not_mem_cons_of_ne_of_not_mem (by decide) (hds.not_mem (by decide))

theorem PartReads.byteLength {part ds : List Char} (h : PartReads part ds) :
    Text.byteLength part = part.length := by
  refine Text.byteLength_of_ascii fun c hc => ?_
  have hdigit {c : Char} (hc : c ∈ ds) : c.toNat < 128 := by
    have hle : c.toNat ≤ 57 := (Char.isDigit_iff_toNat.mp (h.1 c hc)).2
    omega
  rcases h with ⟨-, rfl | ⟨-, rfl⟩⟩
  · exact hdigit hc
  · rcases List.mem_cons.mp hc with rfl | hc
    · decide
    · exact hdigit hc

theorem PartReads.eq_of_allDigits {part ds : List Char} (h : PartReads part ds)
    (hpart : AllDigits part) : part = ds := by
  rcases h with ⟨-, rfl | ⟨-, rfl⟩⟩
  · rfl
  · exact absurd List.mem_cons_self (hpart.not_mem (c := '+') (by decide))

/-- What is read of a fraction, and what it is read as. -/
theorem PartReads.fractionDigits {digits frac rest : List Char} (h : PartReads digits frac)
    (hcut : digits.length = 24 ∨ (digits.length < 24 ∧ rest = [])) :
    fractionDigits (digits ++ rest) = .ok digits := by
  refine fractionDigits_eq_ok.mpr ⟨rest, rfl, ?_⟩
  rw [h.byteLength]
  rcases hcut with hlen | ⟨hlen, hnil⟩
  · exact ⟨hlen.le, .inl hlen⟩
  · exact ⟨hlen.le, .inr hnil⟩

private theorem PartReads.length_le {part ds : List Char} (h : PartReads part ds) :
    ds.length ≤ part.length := by
  rcases h with ⟨-, rfl | ⟨-, rfl⟩⟩
  · exact Nat.le_refl _
  · exact Nat.le_succ _

theorem PartReads.partValue {digits frac rest : List Char} (h : PartReads digits frac)
    (hcut : digits.length = 24 ∨ (digits.length < 24 ∧ rest = [])) :
    partValue digits = some (value frac) := by
  refine partValue_eq_some.mpr ⟨frac, h, rfl, ?_⟩
  have hle : frac.length ≤ 24 := by
    have hlength := h.length_le
    omega
  calc value frac < 10 ^ frac.length := value_lt h.1
    _ ≤ 10 ^ 24 := Nat.pow_le_pow_right (by decide) hle
    _ < u128Bound := ten_pow_lt_u128Bound

theorem partReads_of_allDigits {ds : List Char} (h : AllDigits ds) : PartReads ds ds :=
  ⟨h, .inl rfl⟩

end Amount

/-- A fraction of which 24 digits are read is rounded toward zero. -/
theorem scaled_eq_cut {whole digits rest : List Char} (hrest : AllDigits rest)
    (hcut : digits.length = 24 ∨ (digits.length < 24 ∧ rest = [])) :
    scaled yoctoPerNear whole (digits ++ rest) =
      value whole * yoctoPerNear + value digits * 10 ^ (24 - digits.length) := by
  have hnear : yoctoPerNear = 10 ^ 24 := rfl
  rw [hnear]
  unfold scaled
  rcases hcut with hlen | ⟨hlen, rfl⟩
  · have hlt := value_lt hrest
    rw [value_append, value_append, List.length_append, hlen, Nat.pow_add]
    generalize value whole = w
    generalize value digits = d
    generalize value rest = r at hlt ⊢
    generalize 10 ^ rest.length = m at hlt ⊢
    have hsum : (w * (10 ^ 24 * m) + (d * m + r)) * 10 ^ 24 = 10 ^ 24 * (m * (w * 10 ^ 24 + d) + r) := by
      ring
    rw [hsum, Nat.mul_div_mul_left _ _ (by positivity), Nat.mul_add_div (by omega),
      Nat.div_eq_of_lt hlt]
    simp
  · rw [List.append_nil, value_append]
    have hpow : 10 ^ 24 = 10 ^ digits.length * 10 ^ (24 - digits.length) := by
      rw [← Nat.pow_add, Nat.add_sub_cancel' hlen.le]
    generalize hm : 10 ^ digits.length = m at hpow ⊢
    have hpos : 0 < m := by
      rw [← hm]
      positivity
    generalize 10 ^ (24 - digits.length) = k at hpow ⊢
    rw [hpow]
    have hsum : (value whole * m + value digits) * (m * k) =
        m * (value whole * (m * k) + value digits * k) := by
      ring
    rw [hsum, Nat.mul_div_cancel_left _ hpos]

private theorem parseNearParts_eq_ok {invalid : ParseAmountError}
    {integerPart decimalPart : List Char} {v : NearToken} :
    parseNearParts invalid integerPart decimalPart = .ok v ↔
      ∃ whole digits frac rest, decimalPart = digits ++ rest ∧ PartReads integerPart whole ∧
        PartReads digits frac ∧ (digits.length = 24 ∨ (digits.length < 24 ∧ rest = [])) ∧
        value whole * yoctoPerNear + value frac * 10 ^ (24 - digits.length) < u128Bound ∧
        v = .ofNat 128 (value whole * yoctoPerNear + value frac * 10 ^ (24 - digits.length)) := by
  constructor
  · intro h
    have hparts := h
    unfold parseNearParts at hparts
    obtain ⟨integer, hinteger, hparts⟩ := MayPanic.bind_eq_ok.mp hparts
    obtain ⟨digits, hdigits, hparts⟩ := MayPanic.bind_eq_ok.mp hparts
    obtain ⟨decimal, hdecimal, -⟩ := MayPanic.bind_eq_ok.mp hparts
    have hinteger := MayPanic.okOr_eq_ok.mp hinteger
    have hdecimal := MayPanic.okOr_eq_ok.mp hdecimal
    rw [parseNearParts_eq hinteger hdigits hdecimal] at h
    obtain ⟨whole, hwhole, rfl, -⟩ := partValue_eq_some.mp hinteger
    obtain ⟨frac, hfrac, rfl, -⟩ := partValue_eq_some.mp hdecimal
    obtain ⟨rest, hrest, hle, hcut⟩ := fractionDigits_eq_ok.mp hdigits
    obtain ⟨total, htotal, hv⟩ := MayPanic.bind_eq_ok.mp h
    have hbelow := MayPanic.okOr_eq_ok.mp htotal
    rw [hfrac.byteLength] at hle hcut hbelow
    simp only [Checked.below, Option.ite_none_right_eq_some, Option.some.injEq] at hbelow
    obtain ⟨hlt, rfl⟩ := hbelow
    refine ⟨whole, digits, frac, rest, hrest, hwhole, hfrac, ?_, hlt, (MayPanic.ok_inj.mp hv).symm⟩
    by_cases hlen : digits.length = 24
    · exact .inl hlen
    · exact .inr ⟨by omega, hcut.resolve_left hlen⟩
  · rintro ⟨whole, digits, frac, rest, rfl, hwhole, hfrac, hcut, hlt, rfl⟩
    have hsize : 0 < yoctoPerNear := by decide
    have hwholeLt : value whole < u128Bound := by
      have hle := Nat.le_mul_of_pos_right (value whole) hsize
      omega
    have hinteger := partValue_eq_some.mpr ⟨whole, hwhole, rfl, hwholeLt⟩
    rw [parseNearParts_eq hinteger (hfrac.fractionDigits hcut) (hfrac.partValue hcut),
      hfrac.byteLength, Checked.below_of_lt hlt]
    rfl

/-- A number with a point that is read without being a numeral: a side has a sign, neither
side has a digit, or what follows the 24th digit is not digits. -/
def MisreadPoint (text : List Char) : Prop :=
  ∃ integerPart whole digits frac rest, text = integerPart ++ '.' :: (digits ++ rest) ∧
    PartReads integerPart whole ∧ PartReads digits frac ∧
    (digits.length = 24 ∨ (digits.length < 24 ∧ rest = [])) ∧
    value whole * yoctoPerNear + value frac * 10 ^ (24 - digits.length) < u128Bound ∧
    ¬ (AllDigits integerPart ∧ AllDigits digits ∧ AllDigits rest ∧ integerPart ++ digits ≠ [])

theorem exists_cut {frac : List Char} (h : AllDigits frac) :
    ∃ digits rest, frac = digits ++ rest ∧ AllDigits digits ∧ AllDigits rest ∧
      (digits.length = 24 ∨ (digits.length < 24 ∧ rest = [])) := by
  have hsplit := List.take_append_drop 24 frac
  obtain ⟨hdigits, hrest⟩ := allDigits_append.mp (hsplit.symm ▸ h)
  refine ⟨frac.take 24, frac.drop 24, hsplit.symm, hdigits, hrest, ?_⟩
  rw [List.length_take, List.drop_eq_nil_iff]
  omega

theorem toNat_ofNat_u128 : ∀ n < u128Bound, (BitVec.ofNat 128 n).toNat = n :=
  fun _ h => (BitVec.toNat_ofNat _ _).trans (Nat.mod_eq_of_lt h)

private theorem toNat_ofNat_u64 : ∀ n < u64Bound, (UInt64.ofNat n).toNat = n :=
  fun _ h => UInt64.toNat_ofNat_of_lt' h

/-- Digits on both sides whose number is too large. -/
theorem exists_parseNearParts_err {invalid : ParseAmountError} {whole digits rest : List Char}
    (hw : AllDigits whole) (hd : AllDigits digits)
    (hcut : digits.length = 24 ∨ (digits.length < 24 ∧ rest = []))
    (hle : u128Bound ≤ value whole * yoctoPerNear + value digits * 10 ^ (24 - digits.length)) :
    ∃ e, parseNearParts invalid whole (digits ++ rest) = .err e := by
  have hreads := partReads_of_allDigits hd
  cases hinteger : partValue whole with
  | none =>
    unfold parseNearParts
    rw [hinteger]
    exact ⟨_, rfl⟩
  | some integer =>
    obtain ⟨ds, hds, rfl, -⟩ := partValue_eq_some.mp hinteger
    obtain rfl := hds.eq_of_allDigits hw
    rw [parseNearParts_eq hinteger (hreads.fractionDigits hcut) (hreads.partValue hcut),
      hreads.byteLength, Checked.below_of_le hle]
    exact ⟨_, rfl⟩

private theorem numberExact_point {unit : AmountUnit} {invalid : ParseAmountError}
    {integerPart decimalPart : List Char} (hsize : unit.size = yoctoPerNear)
    (hpointed : unit.pointed = true) (hpoint : '.' ∉ integerPart) :
    NumberExact BitVec.toNat u128Bound unit (integerPart ++ '.' :: decimalPart)
        (parseNearParts invalid integerPart decimalPart) ↔
      ¬ MisreadPoint (integerPart ++ '.' :: decimalPart) := by
  constructor
  · rintro ⟨hsound, -⟩ ⟨ip, whole, digits, frac, rest, heq, hwhole, hfrac, hcut, hlt, hnot⟩
    obtain ⟨rfl, rfl⟩ := sides_unique hwhole.no_point hpoint heq.symm
    obtain ⟨whole', frac', hdecimal, -⟩ := hsound _ (parseNearParts_eq_ok.mpr
      ⟨whole, digits, frac, rest, rfl, hwhole, hfrac, hcut, hlt, rfl⟩)
    obtain ⟨rfl, rfl, hw, hf, hne⟩ := hdecimal.of_point rfl hpoint
    obtain ⟨hd, hr⟩ := allDigits_append.mp hf
    refine hnot ⟨hw, hd, hr, fun hnil => hne ?_⟩
    obtain ⟨hwhole, rfl⟩ := List.append_eq_nil_iff.mp hnil
    rcases hcut with hlen | ⟨-, rfl⟩
    · cases hlen
    · rw [hwhole]
      rfl
  · intro hmisread
    constructor
    · intro v hv
      obtain ⟨whole, digits, frac, rest, rfl, hwhole, hfrac, hcut, hlt, rfl⟩ :=
        parseNearParts_eq_ok.mp hv
      by_cases hproper : AllDigits integerPart ∧ AllDigits digits ∧ AllDigits rest ∧
          integerPart ++ digits ≠ []
      · obtain ⟨hw, hd, hr, hne⟩ := hproper
        obtain rfl := hwhole.eq_of_allDigits hw
        obtain rfl := hfrac.eq_of_allDigits hd
        refine ⟨integerPart, digits ++ rest, .point hw (allDigits_append.mpr ⟨hd, hr⟩) ?_,
          .inl hpointed, ?_⟩
        · rw [← List.append_assoc]
          exact List.append_ne_nil_of_left_ne_nil hne rest
        · rw [toNat_ofNat_u128 _ hlt, hsize, scaled_eq_cut hr hcut]
      · exact absurd ⟨integerPart, whole, digits, frac, rest, rfl, hwhole, hfrac, hcut, hlt, hproper⟩
          hmisread
    · rintro n ⟨whole, frac, hdecimal, -, rfl⟩
      obtain ⟨rfl, rfl, hw, hf, -⟩ := hdecimal.of_point rfl hpoint
      obtain ⟨digits, rest, rfl, hd, hr, hcut⟩ := exists_cut hf
      rw [hsize, scaled_eq_cut hr hcut]
      constructor
      · intro hlt
        refine ⟨_, parseNearParts_eq_ok.mpr ⟨whole, digits, digits, rest, rfl, ?_, ?_, hcut, hlt, rfl⟩,
          toNat_ofNat_u128 _ hlt⟩
        · exact partReads_of_allDigits hw
        · exact partReads_of_allDigits hd
      · exact fun hle => exists_parseNearParts_err hw hd hcut hle

/-! ## The parsers on every text -/

/-- The number of an amount is misread. -/
def MisreadAmountNumber (unit : AmountUnit) (number : List Char) : Prop :=
  Signed u128Bound unit.size number ∨ (unit.pointed = true ∧ MisreadPoint number)

def MisreadAmount (text : List Char) : Prop := Misread u128Bound nearUnits MisreadAmountNumber text

def MisreadGas (text : List Char) : Prop :=
  Misread u64Bound gasUnits (fun unit => Signed u64Bound unit.size) text

private theorem trim_trim (cs : List Char) : Text.trim (Text.trim cs) = Text.trim cs :=
  Text.trim_of_trimmed (Text.trimmed_trim cs)

private theorem numberExact_near {unit : AmountUnit} (hsize : unit.size = yoctoPerNear)
    (hpointed : unit.pointed = true) (value : List Char) :
    NumberExact BitVec.toNat u128Bound unit (Text.trim value)
        (parseNearDecimal (Text.trim value)) ↔
      ¬ MisreadAmountNumber unit (Text.trim value) := by
  have htrim := trim_trim value
  generalize Text.trim value = number at htrim ⊢
  rcases point_cases number with hpoint | ⟨integerPart, decimalPart, rfl, hpoint⟩
  · have hnot : ¬ (unit.pointed = true ∧ MisreadPoint number) := by
      rintro ⟨-, _, _, _, _, _, rfl, -⟩
      exact hpoint (List.mem_append_right _ List.mem_cons_self)
    have hparse := parseNearDecimal_of_no_point (htrim.symm ▸ hpoint)
    rw [htrim, ← hsize] at hparse
    rw [hparse, MisreadAmountNumber, or_iff_left hnot]
    exact numberExact_whole (hsize ▸ by decide) toNat_ofNat_u128 hpoint
  · have hnot : ¬ Signed u128Bound unit.size (integerPart ++ '.' :: decimalPart) :=
      fun h => h.no_point (List.mem_append_right _ List.mem_cons_self)
    rw [parseNearDecimal_of_point htrim hpoint, MisreadAmountNumber, or_iff_right hnot,
      and_iff_right hpointed]
    exact numberExact_point hsize hpointed hpoint

theorem parseWhole_one {ε α : Type} (bound : ℕ) (invalid overflow : ε) (make : ℕ → α)
    (text : List Char) : parseWhole bound 1 invalid overflow make text =
      (.okOr invalid (fromStr bound text) >>= fun n => .ok (make n)) := by
  unfold parseWhole
  cases hfrom : fromStr bound text with
  | none => rfl
  | some n =>
    have hlt : n * 1 < bound := by
      rw [Nat.mul_one]
      exact (fromStr_eq_some.mp hfrom).2.2
    rw [MayPanic.okOr_some, MayPanic.ok_bind, MayPanic.ok_bind, Checked.mul_of_lt hlt, Nat.mul_one]
    rfl

theorem stripUnit_eq_none {units : List String} (hunits : ∀ u ∈ units, ' ' ∉ u.toList)
    {cs value : List Char} {unit : String} (hspace : ' ' ∉ unit.toList) (hunit : unit ∉ units)
    (hcs : cs = value ++ ' ' :: unit.toList) : stripUnit units cs = none := by
  rw [Option.eq_none_iff_forall_ne_some]
  intro value' h
  obtain ⟨u, hu, hcs'⟩ := (stripUnit_eq_some hunits).mp h
  have hnot {v : String} (hv : ' ' ∉ v.toList) : ∀ c ∈ v.toList, ¬ c = ' ' := by
    rintro c hc rfl
    exact hv hc
  obtain ⟨-, -, hname⟩ := Text.append_cons_inj_of_last (p := (· = ' ')) rfl rfl (hnot hspace)
    (hnot (hunits u hu)) (hcs.symm.trans hcs')
  exact hunit (String.toList_inj.mp hname ▸ hu)

theorem stripUnit_eq_none_of_forall {units : List String} (hunits : ∀ u ∈ units, ' ' ∉ u.toList)
    {cs : List Char} (h : ∀ u ∈ units, ∀ value, cs ≠ value ++ ' ' :: u.toList) :
    stripUnit units cs = none := by
  rw [Option.eq_none_iff_forall_ne_some]
  intro value hvalue
  obtain ⟨u, hu, hcs⟩ := (stripUnit_eq_some hunits).mp hvalue
  exact h u hu value hcs

private theorem parseNearToken_of_milli {text : String} {value : List Char}
    (hnear : stripUnit ["NEAR", "near"] (Text.trim text.toList) = none)
    (h : stripUnit ["milliNEAR", "mNEAR"] (Text.trim text.toList) = some value) :
    parseNearToken text = parseWhole u128Bound yoctoPerMillinear
      (.invalidNumber (String.ofList (Text.trim text.toList))) .overflow (.ofNat 128)
      (Text.trim value) := by
  simp only [parseNearToken, hnear, h]

private theorem parseNearToken_of_yocto {text : String} {value : List Char}
    (hnear : stripUnit ["NEAR", "near"] (Text.trim text.toList) = none)
    (hmilli : stripUnit ["milliNEAR", "mNEAR"] (Text.trim text.toList) = none)
    (h : stripUnit ["yoctoNEAR", "yocto"] (Text.trim text.toList) = some value) :
    parseNearToken text = parseWhole u128Bound 1
      (.invalidNumber (String.ofList (Text.trim text.toList))) .overflow (.ofNat 128)
      (Text.trim value) := by
  rw [parseWhole_one]
  simp only [parseNearToken, hnear, hmilli, h]

private theorem parseNearToken_of_no_unit {text : String}
    (hnear : stripUnit ["NEAR", "near"] (Text.trim text.toList) = none)
    (hmilli : stripUnit ["milliNEAR", "mNEAR"] (Text.trim text.toList) = none)
    (hyocto : stripUnit ["yoctoNEAR", "yocto"] (Text.trim text.toList) = none) :
    ∃ e, parseNearToken text = .err e := by
  simp only [parseNearToken, hnear, hmilli, hyocto]
  split
  · exact ⟨_, rfl⟩
  · exact ⟨_, rfl⟩

private theorem parseGas_of_tera {text : String} {value : List Char}
    (h : stripUnit ["Tgas", "tgas", "TGas"] (Text.trim text.toList) = some value) :
    parseGas text = parseWhole u64Bound gasPerTgas
      (.invalidNumber (String.ofList (Text.trim text.toList))) .overflow .ofNat
      (Text.trim value) := by
  simp only [parseGas, h]

private theorem parseGas_of_giga {text : String} {value : List Char}
    (htera : stripUnit ["Tgas", "tgas", "TGas"] (Text.trim text.toList) = none)
    (h : stripUnit ["Ggas", "ggas", "GGas"] (Text.trim text.toList) = some value) :
    parseGas text = parseWhole u64Bound gasPerGgas
      (.invalidNumber (String.ofList (Text.trim text.toList))) .overflow .ofNat
      (Text.trim value) := by
  simp only [parseGas, htera, h]

private theorem parseGas_of_gas {text : String} {value : List Char}
    (htera : stripUnit ["Tgas", "tgas", "TGas"] (Text.trim text.toList) = none)
    (hgiga : stripUnit ["Ggas", "ggas", "GGas"] (Text.trim text.toList) = none)
    (h : stripUnit ["gas"] (Text.trim text.toList) = some value) :
    parseGas text = parseWhole u64Bound 1
      (.invalidNumber (String.ofList (Text.trim text.toList))) .overflow .ofNat
      (Text.trim value) := by
  rw [parseWhole_one]
  simp only [parseGas, htera, hgiga, h]

private theorem parseGas_of_no_unit {text : String}
    (htera : stripUnit ["Tgas", "tgas", "TGas"] (Text.trim text.toList) = none)
    (hgiga : stripUnit ["Ggas", "ggas", "GGas"] (Text.trim text.toList) = none)
    (hgas : stripUnit ["gas"] (Text.trim text.toList) = none) :
    ∃ e, parseGas text = .err e := by
  simp only [parseGas, htera, hgiga, hgas]
  exact ⟨_, rfl⟩

theorem space_not_mem_tera : ∀ u ∈ ["Tgas", "tgas", "TGas"], ' ' ∉ u.toList := by decide

theorem space_not_mem_giga : ∀ u ∈ ["Ggas", "ggas", "GGas"], ' ' ∉ u.toList := by decide

theorem space_not_mem_gas : ∀ u ∈ ["gas"], ' ' ∉ u.toList := by decide

/-- A unit of the list in front of which its number stands is found. -/
theorem stripUnit_of_unit {units : List String} (hunits : ∀ u ∈ units, ' ' ∉ u.toList)
    {cs value : List Char} {unit : AmountUnit} (hcs : cs = value ++ ' ' :: unit.name.toList)
    (hmem : unit.name ∈ units) : stripUnit units cs = some value :=
  (stripUnit_eq_some hunits).mpr ⟨unit.name, hmem, hcs⟩

private theorem parseNearToken_of_pointed {text : String} {value : List Char} {unit : AmountUnit}
    (hunit : unit ∈ nearUnits) (hpointed : unit.pointed = true)
    (htext : Text.trim text.toList = value ++ ' ' :: unit.name.toList) :
    unit.size = yoctoPerNear ∧ parseNearToken text = parseNearDecimal (Text.trim value) := by
  have hunits : ∀ u ∈ nearUnits, u.pointed = true → u.size = yoctoPerNear ∧ u.name ∈ ["NEAR", "near"] := by
    decide
  obtain ⟨hsize, hname⟩ := hunits unit hunit hpointed
  exact ⟨hsize, parseNearToken_of_near (stripUnit_of_unit space_not_mem_near htext hname)⟩

/-- The units without a point are looked for after the others, and one after the other. -/
theorem parseNearToken_of_not_pointed {text : String} {value : List Char} {unit : AmountUnit}
    (hunit : unit ∈ nearUnits) (hpointed : unit.pointed = false)
    (htext : Text.trim text.toList = value ++ ' ' :: unit.name.toList) :
    parseNearToken text = parseWhole u128Bound unit.size
      (.invalidNumber (String.ofList (Text.trim text.toList))) .overflow (.ofNat 128)
      (Text.trim value) := by
  have hspace : ' ' ∉ unit.name.toList :=
    (by decide : ∀ u ∈ nearUnits, ' ' ∉ u.name.toList) unit hunit
  have hunits : ∀ u ∈ nearUnits, u.pointed = false → u.name ∉ ["NEAR", "near"] ∧
      (u.size = yoctoPerMillinear ∧ u.name ∈ ["milliNEAR", "mNEAR"] ∨
        u.size = 1 ∧ u.name ∉ ["milliNEAR", "mNEAR"] ∧ u.name ∈ ["yoctoNEAR", "yocto"]) := by
    decide
  obtain ⟨hname, hcases⟩ := hunits unit hunit hpointed
  have hnear := stripUnit_eq_none space_not_mem_near hspace hname htext
  rcases hcases with ⟨hsize, hmilli⟩ | ⟨hsize, hmilli, hyocto⟩
  · rw [hsize]
    exact parseNearToken_of_milli hnear (stripUnit_of_unit space_not_mem_milli htext hmilli)
  · rw [hsize]
    exact parseNearToken_of_yocto hnear (stripUnit_eq_none space_not_mem_milli hspace hmilli htext)
      (stripUnit_of_unit space_not_mem_yocto htext hyocto)

/-- The units of gas are looked for one after the other. -/
theorem parseGas_of_unit {text : String} {value : List Char} {unit : AmountUnit}
    (hunit : unit ∈ gasUnits) (htext : Text.trim text.toList = value ++ ' ' :: unit.name.toList) :
    parseGas text = parseWhole u64Bound unit.size
      (.invalidNumber (String.ofList (Text.trim text.toList))) .overflow .ofNat
      (Text.trim value) := by
  have hspace : ' ' ∉ unit.name.toList :=
    (by decide : ∀ u ∈ gasUnits, ' ' ∉ u.name.toList) unit hunit
  have hunits : ∀ u ∈ gasUnits,
      u.size = gasPerTgas ∧ u.name ∈ ["Tgas", "tgas", "TGas"] ∨
      u.size = gasPerGgas ∧ u.name ∉ ["Tgas", "tgas", "TGas"] ∧ u.name ∈ ["Ggas", "ggas", "GGas"] ∨
      u.size = 1 ∧ u.name ∉ ["Tgas", "tgas", "TGas"] ∧ u.name ∉ ["Ggas", "ggas", "GGas"] ∧
        u.name ∈ ["gas"] := by
    decide
  rcases hunits unit hunit with ⟨hsize, htera⟩ | ⟨hsize, htera, hgiga⟩ | ⟨hsize, htera, hgiga, hgas⟩
  · rw [hsize]
    exact parseGas_of_tera (stripUnit_of_unit space_not_mem_tera htext htera)
  · rw [hsize]
    exact parseGas_of_giga (stripUnit_eq_none space_not_mem_tera hspace htera htext)
      (stripUnit_of_unit space_not_mem_giga htext hgiga)
  · rw [hsize]
    exact parseGas_of_gas (stripUnit_eq_none space_not_mem_tera hspace htera htext)
      (stripUnit_eq_none space_not_mem_giga hspace hgiga htext)
      (stripUnit_of_unit space_not_mem_gas htext hgas)

theorem numberExact_amount {text : String} {value : List Char} {unit : AmountUnit}
    (hunit : unit ∈ nearUnits) (htext : Text.trim text.toList = value ++ ' ' :: unit.name.toList) :
    NumberExact BitVec.toNat u128Bound unit (Text.trim value) (parseNearToken text) ↔
      ¬ MisreadAmountNumber unit (Text.trim value) := by
  cases hpointed : unit.pointed with
  | true =>
    obtain ⟨hsize, hparse⟩ := parseNearToken_of_pointed hunit hpointed htext
    rw [hparse]
    exact numberExact_near hsize hpointed value
  | false =>
    have hpos : 0 < unit.size := (by decide : ∀ u ∈ nearUnits, 0 < u.size) unit hunit
    rw [parseNearToken_of_not_pointed hunit hpointed htext, MisreadAmountNumber, hpointed,
      or_iff_left (fun h => Bool.false_ne_true h.1)]
    exact numberExact_unpointed hpointed hpos toNat_ofNat_u128

private theorem numberExact_gas {text : String} {value : List Char} {unit : AmountUnit}
    (hunit : unit ∈ gasUnits) (htext : Text.trim text.toList = value ++ ' ' :: unit.name.toList) :
    NumberExact UInt64.toNat u64Bound unit (Text.trim value) (parseGas text) ↔
      ¬ Signed u64Bound unit.size (Text.trim value) := by
  have hunits : ∀ u ∈ gasUnits, u.pointed = false ∧ 0 < u.size := by decide
  obtain ⟨hpointed, hpos⟩ := hunits unit hunit
  rw [parseGas_of_unit hunit htext]
  exact numberExact_unpointed hpointed hpos toNat_ofNat_u64

theorem stripUnit_eq_none_of_unknown {table : List AmountUnit} {cs : List Char}
    (h : ∀ u ∈ table, ∀ value, cs ≠ value ++ ' ' :: u.name.toList) {units : List String}
    (hunits : ∀ u ∈ units, ' ' ∉ u.toList)
    (hsubset : ∀ u ∈ units, ∃ unit ∈ table, unit.name = u) : stripUnit units cs = none := by
  refine stripUnit_eq_none_of_forall hunits fun u hu value => ?_
  obtain ⟨unit, hunit, rfl⟩ := hsubset u hu
  exact h unit hunit value

private theorem parseNearToken_unknown {text : String}
    (h : ∀ u ∈ nearUnits, ∀ value, Text.trim text.toList ≠ value ++ ' ' :: u.name.toList) :
    ∃ e, parseNearToken text = .err e := by
  have hnear := stripUnit_eq_none_of_unknown h space_not_mem_near (by decide)
  have hmilli := stripUnit_eq_none_of_unknown h space_not_mem_milli (by decide)
  have hyocto := stripUnit_eq_none_of_unknown h space_not_mem_yocto (by decide)
  exact parseNearToken_of_no_unit hnear hmilli hyocto

private theorem parseGas_unknown {text : String}
    (h : ∀ u ∈ gasUnits, ∀ value, Text.trim text.toList ≠ value ++ ' ' :: u.name.toList) :
    ∃ e, parseGas text = .err e := by
  have htera := stripUnit_eq_none_of_unknown h space_not_mem_tera (by decide)
  have hgiga := stripUnit_eq_none_of_unknown h space_not_mem_giga (by decide)
  have hgas := stripUnit_eq_none_of_unknown h space_not_mem_gas (by decide)
  exact parseGas_of_no_unit htera hgiga hgas

theorem nearToken_readExactly_iff (text : String) :
    ReadExactly BitVec.toNat u128Bound nearUnits text.toList (parseNearToken text) ↔
      ¬ MisreadAmount text.toList :=
  readExactly_iff (by decide) (by decide) (fun _ hu _ => numberExact_amount hu)
    parseNearToken_unknown

theorem gas_readExactly_iff (text : String) :
    ReadExactly UInt64.toNat u64Bound gasUnits text.toList (parseGas text) ↔
      ¬ MisreadGas text.toList :=
  readExactly_iff (by decide) (by decide) (fun _ hu _ => numberExact_gas hu) parseGas_unknown

/-- Amounts and gas are read exactly on every text that is not misread, and on no other. -/
theorem amounts_read_exactly_iff (text : String) :
    (ReadExactly BitVec.toNat u128Bound nearUnits text.toList (parseNearToken text) ↔
      ¬ MisreadAmount text.toList) ∧
    (ReadExactly UInt64.toNat u64Bound gasUnits text.toList (parseGas text) ↔
      ¬ MisreadGas text.toList) :=
  ⟨nearToken_readExactly_iff text, gas_readExactly_iff text⟩

/-- What follows the 24th digit is not looked at, a sign is read with the digits, and a point
alone is zero. A tab does for the space in front of a unit only with a space after it. -/
theorem amounts_misread :
    parseNearToken "0.000000000000000000000000x NEAR" = .ok 0 ∧
      parseNearToken "+5 NEAR" = .ok 5000000000000000000000000 ∧
      parseNearToken ". NEAR" = .ok 0 ∧ parseGas "+30 Tgas" = .ok 30000000000000 ∧
      parseNearToken "5\tNEAR" = .err (.invalidFormat "5\tNEAR") ∧
      ¬ ReadExactly BitVec.toNat u128Bound nearUnits "0.000000000000000000000000x NEAR".toList
        (parseNearToken "0.000000000000000000000000x NEAR") ∧
      ¬ ReadExactly UInt64.toNat u64Bound gasUnits "+30 Tgas".toList (parseGas "+30 Tgas") := by
  have hzeros : AllDigits (List.replicate 24 '0') := allDigits_replicate 24
  have hpoint : MisreadPoint ('0' :: '.' :: (List.replicate 24 '0' ++ ['x'])) :=
    ⟨['0'], ['0'], List.replicate 24 '0', List.replicate 24 '0', ['x'], rfl,
      partReads_of_allDigits (by decide), partReads_of_allDigits hzeros, .inl rfl, by decide,
      fun h => absurd h.2.2.1 (by decide)⟩
  have hamount : MisreadAmount "0.000000000000000000000000x NEAR".toList :=
    ⟨⟨"NEAR", yoctoPerNear, true⟩, by decide, '0' :: '.' :: (List.replicate 24 '0' ++ ['x']), ' ',
      by decide, rfl, .inl ⟨rfl, .inr ⟨rfl, hpoint⟩⟩⟩
  have hgas : MisreadGas "+30 Tgas".toList :=
    ⟨⟨"Tgas", gasPerTgas, false⟩, by decide, ['+', '3', '0'], ' ', by decide, rfl,
      .inl ⟨rfl, ['3', '0'], by decide, by decide, by decide⟩⟩
  refine ⟨by decide +kernel, by decide +kernel, by decide +kernel, by decide +kernel,
    by decide +kernel, ?_, ?_⟩
  · exact fun h => (nearToken_readExactly_iff _).mp h hamount
  · exact fun h => (gas_readExactly_iff _).mp h hgas

end NearKit
