import NearKit.BorshPrimitives
import NearKit.DebugText
import NearKit.Numerals
import NearKit.TextShapes

/-!
# Derivation paths

The parser of hardened derivation paths and the derivation that walks along its result.
The parser takes an `m`, a slash in front and a slash behind off a path one after the
other, so it also takes off what the documented grammar does not put there.
-/
namespace NearKit
open Borsh Numeral

/-! ## The parser -/

/-- `HARDENED`, 2^31. -/
def hardened : UInt32 := 0x80000000

inductive HdPathError where
  | emptySegment
  | invalidIndex (segment : String)
  | indexOutOfRange (segment : String)
  | notHardened (segment : String)
  deriving DecidableEq

/-- `Display` of an `HdPathError`. A segment stands there as `Debug` writes it. -/
def HdPathError.display (byNumber : Char → Bool) : HdPathError → String
  | emptySegment => "empty path segment"
  | invalidIndex s => "invalid path index " ++ String.ofList (Debug.str byNumber s)
  | indexOutOfRange s => "path index out of range " ++ String.ofList (Debug.str byNumber s)
  | notHardened s => "SLIP-10 requires hardened derivation, got " ++ String.ofList (Debug.str byNumber s)

namespace HdPath

def apostrophe : Char := Char.ofNat 0x27

def isMarker (c : Char) : Bool := c == apostrophe || c == 'H'

/-- The digits of a segment, and whether a hardened marker stood behind them. -/
def splitMarker (seg : List Char) : List Char × Bool :=
  match seg.getLast? with
  | some c => if isMarker c then (seg.dropLast, true) else (seg, false)
  | none => (seg, false)

def parseSegment (seg : List Char) : Except HdPathError UInt32 :=
  if seg = [] then .error .emptySegment
  else
    let (numStr, isHardened) := splitMarker seg
    if ¬ IsNumeral numStr then .error (.invalidIndex (String.ofList seg))
    else match fromStr (2 ^ 32) numStr with
    | none => .error (.indexOutOfRange (String.ofList seg))
    | some n =>
      let idx := UInt32.ofNat n
      if hardened ≤ idx then .error (.indexOutOfRange (String.ofList seg))
      else if isHardened then .ok (idx ||| hardened)
      else .error (.notHardened (String.ofList seg))

/-- The part of a path that is split into segments. -/
def body (path : List Char) : List Char :=
  Text.dropSuffix '/' (Text.dropPrefix '/' (Text.dropPrefix 'm' path))

end HdPath

def parseHdPath (path : String) : Except HdPathError (List UInt32) :=
  let body := HdPath.body path.toList
  if body = [] then .ok [] else (body.splitOn '/').mapM HdPath.parseSegment

/-! ## The derivation -/

/-- HMAC-SHA512 of a key and a message. -/
class HdCrates where
  hmacSha512 : Bytes → Bytes → ByteArr 64

section
variable [HdCrates]

/-- One hardened child step. `none` is the failed `debug_assert`. -/
def deriveHardenedChild (i : ByteArr 64) (index : UInt32) : Option (ByteArr 64) :=
  if index &&& hardened ≠ 0 then
    let il := i.val.take 32
    let ir := i.val.drop 32
    let data := 0 :: il ++ (leBytes 4 index.toNat).reverse
    some (HdCrates.hmacSha512 ir data)
  else none

def deriveSlip10Node (salt seed : Bytes) (path : List UInt32) : Option (ByteArr 64) :=
  path.foldlM deriveHardenedChild (HdCrates.hmacSha512 salt seed)

/-- Hardened indexes are derived along to the end. -/
theorem exists_deriveSlip10Node {path : List UInt32} (h : ∀ i ∈ path, i &&& hardened ≠ 0)
    (salt seed : Bytes) : ∃ node, deriveSlip10Node salt seed path = some node := by
  unfold deriveSlip10Node
  generalize HdCrates.hmacSha512 salt seed = i
  induction path generalizing i with
  | nil => exact ⟨i, rfl⟩
  | cons index path ih =>
    obtain ⟨hindex, hpath⟩ := List.forall_mem_cons.mp h
    obtain ⟨node, hnode⟩ := ih hpath (HdCrates.hmacSha512 (i.val.drop 32)
      (0 :: i.val.take 32 ++ (leBytes 4 index.toNat).reverse))
    refine ⟨node, ?_⟩
    rw [List.foldlM_cons, deriveHardenedChild, if_pos hindex]
    exact hnode

end

/-! ## The documented grammar -/

namespace HdPath

/-- A segment: a decimal below 2^31, and `'` or `H` behind it. -/
def IsSegment (seg : List Char) (index : UInt32) : Prop :=
  ∃ ds c, seg = ds ++ [c] ∧ IsNumeral ds ∧ isMarker c = true ∧ value ds < 2 ^ 31 ∧
    index.toNat = 2 ^ 31 + value ds

/-- One or more segments, with a slash between each two. -/
def IsBody (cs : List Char) (indexes : List UInt32) : Prop :=
  ∃ segs, segs ≠ [] ∧ cs = ['/'].intercalate segs ∧ List.Forall₂ IsSegment segs indexes

/-- The grammar of the documentation, with the indexes that a path stands for. -/
inductive Documented : List Char → List UInt32 → Prop where
  | root {path : List Char} (h : path ∈ [[], ['m'], ['m', '/'], ['/']]) : Documented path []
  | segments {lead cs trail : List Char} {indexes : List UInt32}
    (hlead : lead ∈ [[], ['m', '/'], ['/']]) (hbody : IsBody cs indexes)
    (htrail : trail ∈ [[], ['/']]) : Documented (lead ++ cs ++ trail) indexes

/-! ## Segments -/

theorem toNat_hardened : hardened.toNat = 2 ^ 31 := rfl

theorem toNat_ofNat {n : ℕ} (h : n < 2 ^ 31) : (UInt32.ofNat n).toNat = n :=
  UInt32.toNat_ofNat_of_lt' (Nat.lt_trans h (by decide))

theorem toNat_or_hardened {n : ℕ} (h : n < 2 ^ 31) :
    (UInt32.ofNat n ||| hardened).toNat = 2 ^ 31 + n := by
  have hadd := Nat.two_pow_add_eq_or_of_lt h 1
  rw [Nat.mul_one] at hadd
  rw [UInt32.toNat_or, toNat_ofNat h, toNat_hardened, Nat.or_comm, hadd]

private theorem and_hardened_ne_zero {index : UInt32} (h : 2 ^ 31 ≤ index.toNat) :
    index &&& hardened ≠ 0 := by
  intro hzero
  have hbit : (index &&& hardened).toNat.testBit 31 = false := by
    rw [hzero]
    rfl
  have hlt := index.toNat_lt
  rw [UInt32.toNat_and, Nat.testBit_and, toNat_hardened, Nat.testBit_two_pow_self,
    Bool.and_true, Nat.testBit_eq_decide_div_mod_eq] at hbit
  have hdiv : index.toNat / 2 ^ 31 = 1 := by omega
  rw [hdiv] at hbit
  cases hbit

theorem splitMarker_concat (ds : List Char) (c : Char) :
    splitMarker (ds ++ [c]) = if isMarker c then (ds, true) else (ds ++ [c], false) := by
  unfold splitMarker
  rw [List.getLast?_concat, List.dropLast_concat]

theorem splitMarker_eq_true {seg ds : List Char} (h : splitMarker seg = (ds, true)) :
    ∃ c, seg = ds ++ [c] ∧ isMarker c = true := by
  rcases List.eq_nil_or_concat' seg with rfl | ⟨xs, c, rfl⟩
  · cases h
  · rw [splitMarker_concat] at h
    split at h
    · next hc =>
      cases h
      exact ⟨c, rfl, hc⟩
    · cases h

private theorem parseSegment_eq_ok {seg : List Char} {index : UInt32} :
    parseSegment seg = .ok index ↔ IsSegment seg index := by
  constructor
  · intro h
    unfold parseSegment at h
    split at h
    · cases h
    · cases hsplit : splitMarker seg with
      | mk numStr isHardened =>
        rw [hsplit] at h
        simp only at h
        split at h
        · cases h
        · next hnumeral =>
          have hnumeral := not_not.mp hnumeral
          cases hvalue : fromStr (2 ^ 32) numStr with
          | none =>
            rw [hvalue] at h
            cases h
          | some n =>
            rw [hvalue] at h
            simp only at h
            obtain ⟨-, hn, hlt⟩ := fromStr_eq_some.mp hvalue
            rw [withoutPlus_of_allDigits hnumeral.2] at hn
            have htoNat : (UInt32.ofNat n).toNat = n := UInt32.toNat_ofNat_of_lt' hlt
            split at h
            · cases h
            · next hrange =>
              have hsmall : value numStr < 2 ^ 31 := by
                rw [UInt32.le_iff_toNat_le, htoNat, toNat_hardened] at hrange
                omega
              split at h
              · next hmarked =>
                cases h
                rw [hmarked] at hsplit
                obtain ⟨c, rfl, hc⟩ := splitMarker_eq_true hsplit
                refine ⟨numStr, c, rfl, hnumeral, hc, hsmall, ?_⟩
                rw [← hn, toNat_or_hardened hsmall]
              · cases h
  · rintro ⟨ds, c, rfl, hnumeral, hc, hsmall, hindex⟩
    have hvalue : fromStr (2 ^ 32) ds = some (value ds) := fromStr_numeral hnumeral (by omega)
    have hrange : ¬ hardened ≤ UInt32.ofNat (value ds) := by
      rw [UInt32.le_iff_toNat_le, toNat_ofNat hsmall, toNat_hardened]
      omega
    have hsame : UInt32.ofNat (value ds) ||| hardened = index := by
      apply UInt32.toNat_inj.mp
      rw [hindex, toNat_or_hardened hsmall]
    unfold parseSegment
    rw [if_neg (by simp), splitMarker_concat, if_pos hc]
    simp only
    rw [if_neg (not_not.mpr hnumeral), hvalue]
    simp only
    rw [if_neg hrange, if_true, hsame]

theorem IsSegment.exists_cons {seg : List Char} {index : UInt32} (h : IsSegment seg index) :
    ∃ d rest, seg = d :: rest ∧ d.isDigit = true := by
  obtain ⟨ds, c, rfl, hnumeral, -⟩ := h
  obtain ⟨d, ds, rfl, hd⟩ := hnumeral.exists_cons
  exact ⟨d, ds ++ [c], rfl, hd⟩

theorem isMarker_slash : isMarker '/' = false := by decide

private theorem IsSegment.slash_not_mem {seg : List Char} {index : UInt32}
    (h : IsSegment seg index) : '/' ∉ seg := by
  obtain ⟨ds, c, rfl, hnumeral, hc, -⟩ := h
  intro hmem
  rcases List.mem_append.mp hmem with hmem | hmem
  · exact hnumeral.2.not_mem rfl hmem
  · rw [← List.mem_singleton.mp hmem, isMarker_slash] at hc
    cases hc

/-! ## Bodies -/

private theorem slash_not_mem_of_forall₂ {segs : List (List Char)} {indexes : List UInt32}
    (h : List.Forall₂ IsSegment segs indexes) : ∀ seg ∈ segs, '/' ∉ seg := by
  induction h with
  | nil => exact nofun
  | cons hseg _ ih => exact List.forall_mem_cons.mpr ⟨hseg.slash_not_mem, ih⟩

/-- Splitting at the slashes finds the segments. -/
theorem mapM_splitOn_eq_ok {cs : List Char} {indexes : List UInt32} :
    (cs.splitOn '/').mapM parseSegment = .ok indexes ↔ IsBody cs indexes := by
  simp only [mapM_eq_ok, parseSegment_eq_ok]
  constructor
  · intro h
    exact ⟨cs.splitOn '/', List.splitOn_ne_nil _ _, (List.intercalate_splitOn '/').symm, h⟩
  · rintro ⟨segs, hne, rfl, h⟩
    rwa [List.splitOn_intercalate '/' (slash_not_mem_of_forall₂ h) hne]

theorem IsBody.exists_cons {cs : List Char} {indexes : List UInt32} (h : IsBody cs indexes) :
    ∃ d rest, cs = d :: rest ∧ d.isDigit = true := by
  obtain ⟨segs, hne, rfl, hall⟩ := h
  cases hall with
  | nil => exact absurd rfl hne
  | @cons seg index segs indexes hseg _ =>
    obtain ⟨d, rest, rfl, hd⟩ := hseg.exists_cons
    cases segs with
    | nil => exact ⟨d, rest, by simp, hd⟩
    | cons seg' segs => exact ⟨d, _, by simp [List.intercalate_cons_cons]; rfl, hd⟩

theorem IsBody.exists_concat {cs : List Char} {indexes : List UInt32} (h : IsBody cs indexes) :
    ∃ rest c, cs = rest ++ [c] ∧ isMarker c = true := by
  obtain ⟨segs, hne, rfl, hall⟩ := h
  induction hall with
  | nil => exact absurd rfl hne
  | @cons seg index segs indexes hseg hsegs ih =>
    cases segs with
    | nil =>
      obtain ⟨ds, c, rfl, -, hc, -⟩ := hseg
      exact ⟨ds, c, by simp, hc⟩
    | cons seg' segs =>
      obtain ⟨rest, c, heq, hc⟩ := ih (List.cons_ne_nil _ _)
      refine ⟨seg ++ '/' :: rest, c, ?_, hc⟩
      rw [List.intercalate_cons_cons, heq]
      simp

theorem IsBody.hardened {cs : List Char} {indexes : List UInt32} (h : IsBody cs indexes) :
    ∀ i ∈ indexes, i &&& NearKit.hardened ≠ 0 := by
  obtain ⟨segs, -, -, hall⟩ := h
  induction hall with
  | nil => exact nofun
  | cons hseg _ ih =>
    obtain ⟨ds, c, -, -, -, -, hindex⟩ := hseg
    exact List.forall_mem_cons.mpr ⟨and_hardened_ne_zero (by omega), ih⟩

/-! ## What the parser accepts -/

theorem isDigit_ne {d : Char} (h : d.isDigit = true) : d ≠ 'm' ∧ d ≠ '/' := by
  constructor
  · rintro rfl
    cases h
  · rintro rfl
    cases h

/-- What is taken off a path, and what is left. -/
theorem exists_body (path : List Char) :
    ∃ lead trail, path = lead ++ body path ++ trail ∧
      lead ∈ [[], ['m'], ['/'], ['m', '/']] ∧ trail ∈ [[], ['/']] := by
  have hm := Text.dropPrefix_cases 'm' path
  have hslash := Text.dropPrefix_cases '/' (Text.dropPrefix 'm' path)
  have htrail := Text.dropSuffix_cases '/' (Text.dropPrefix '/' (Text.dropPrefix 'm' path))
  obtain ⟨lead, hlead, hpath⟩ : ∃ lead ∈ [[], ['m'], ['/'], ['m', '/']],
      path = lead ++ Text.dropPrefix '/' (Text.dropPrefix 'm' path) := by
    rcases hm with hm | hm <;> rcases hslash with hslash | hslash
    · exact ⟨['m', '/'], by simp, by rw [← List.singleton_append] at hm; simpa [← hslash] using hm⟩
    · exact ⟨['m'], by simp, by rw [hslash]; exact hm⟩
    · exact ⟨['/'], by simp, by rw [hm] at hslash ⊢; exact hslash⟩
    · exact ⟨[], by simp, by rw [hslash, hm]; rfl⟩
  rcases htrail with htrail | htrail
  · exact ⟨lead, ['/'], by rw [List.append_assoc]; exact hpath.trans (congrArg _ htrail), hlead,
      by simp⟩
  · exact ⟨lead, [], by rw [List.append_nil]; exact hpath.trans (congrArg _ htrail.symm), hlead,
      by simp⟩

theorem body_eq {cs lead trail : List Char} {indexes : List UInt32} (h : IsBody cs indexes)
    (hlead : lead ∈ [[], ['m'], ['/'], ['m', '/']]) (htrail : trail ∈ [[], ['/']]) :
    body (lead ++ cs ++ trail) = cs := by
  obtain ⟨d, rest, hcs, hd⟩ := h.exists_cons
  obtain ⟨hdm, hdslash⟩ := isDigit_ne hd
  have hhead (c : Char) (hc : d ≠ c) : Text.dropPrefix c (cs ++ trail) = cs ++ trail := by
    apply Text.dropPrefix_of_head
    rw [hcs]
    simpa using hc
  have hlead' : Text.dropPrefix '/' (Text.dropPrefix 'm' (lead ++ cs ++ trail)) = cs ++ trail := by
    rw [List.append_assoc]
    simp only [List.mem_cons, List.not_mem_nil, or_false] at hlead
    rcases hlead with rfl | rfl | rfl | rfl
    · rw [List.nil_append, hhead 'm' hdm, hhead '/' hdslash]
    · rw [List.singleton_append, Text.dropPrefix_cons, hhead '/' hdslash]
    · rw [List.singleton_append, Text.dropPrefix_of_head (c := 'm') (by simp),
        Text.dropPrefix_cons]
    · rw [List.cons_append, List.singleton_append, Text.dropPrefix_cons, Text.dropPrefix_cons]
  obtain ⟨rest, c, hlast, hc⟩ := h.exists_concat
  have hslash : c ≠ '/' := by
    rintro rfl
    rw [isMarker_slash] at hc
    cases hc
  unfold body
  rw [hlead']
  simp only [List.mem_cons, List.not_mem_nil, or_false] at htrail
  rcases htrail with rfl | rfl
  · rw [List.append_nil]
    apply Text.dropSuffix_of_last
    rw [hlast, List.getLast?_concat]
    simpa using hslash
  · exact Text.dropSuffix_concat _ _

private theorem not_isBody_nil {indexes : List UInt32} : ¬ IsBody [] indexes := by
  intro h
  obtain ⟨d, rest, heq, -⟩ := h.exists_cons
  cases heq

/-- The parser accepts an empty rest and a body. -/
theorem parseHdPath_eq_ok {path : String} {indexes : List UInt32} :
    parseHdPath path = .ok indexes ↔
      (body path.toList = [] ∧ indexes = []) ∨ IsBody (body path.toList) indexes := by
  unfold parseHdPath
  simp only
  split
  · next hnil =>
    rw [hnil]
    constructor
    · intro h
      cases h
      exact .inl ⟨rfl, rfl⟩
    · rintro (⟨-, rfl⟩ | h)
      · rfl
      · exact absurd h not_isBody_nil
  · next hne =>
    rw [mapM_splitOn_eq_ok]
    exact ⟨.inr, fun h => h.resolve_left fun h => hne h.1⟩

/-- Paths outside the grammar that the parser takes for paths of the grammar: two slashes and
nothing else, and an `m` with a body directly behind it. -/
def Misread (path : List Char) : Prop :=
  path = ['/', '/'] ∨ path = ['m', '/', '/'] ∨
    ∃ cs trail indexes, path = 'm' :: cs ++ trail ∧ IsBody cs indexes ∧ trail ∈ [[], ['/']]

private theorem Documented.parseHdPath {path : String} {indexes : List UInt32}
    (h : Documented path.toList indexes) : parseHdPath path = .ok indexes := by
  apply parseHdPath_eq_ok.mpr
  generalize path.toList = path at h
  cases h with
  | root h =>
    refine .inl ⟨?_, rfl⟩
    simp only [List.mem_cons, List.not_mem_nil, or_false] at h
    rcases h with rfl | rfl | rfl | rfl <;> rfl
  | segments hlead hbody htrail =>
    have hsubset : [[], ['m', '/'], ['/']] ⊆ [[], ['m'], ['/'], ['m', '/']] := by simp
    rw [body_eq hbody (hsubset hlead) htrail]
    exact .inr hbody

/-- Every accepted path is of the grammar or misread. -/
theorem documented_or_misread {path : String} {indexes : List UInt32}
    (h : parseHdPath path = .ok indexes) :
    Documented path.toList indexes ∨ Misread path.toList := by
  obtain ⟨lead, trail, hpath, hlead, htrail⟩ := exists_body path.toList
  rcases parseHdPath_eq_ok.mp h with ⟨hnil, rfl⟩ | hbody
  · rw [hnil, List.append_nil] at hpath
    rw [hpath]
    simp only [List.mem_cons, List.not_mem_nil, or_false] at hlead htrail
    rcases hlead with rfl | rfl | rfl | rfl <;> rcases htrail with rfl | rfl
    · exact .inl (.root (by simp))
    · exact .inl (.root (by simp))
    · exact .inl (.root (by simp))
    · exact .inl (.root (by simp))
    · exact .inl (.root (by simp))
    · exact .inr (.inl rfl)
    · exact .inl (.root (by simp))
    · exact .inr (.inr (.inl rfl))
  · generalize body path.toList = cs at hpath hbody
    rw [hpath]
    by_cases hm : lead = ['m']
    · subst hm
      exact .inr (.inr (.inr ⟨cs, trail, indexes, by simp, hbody, htrail⟩))
    · refine .inl (.segments ?_ hbody htrail)
      simp only [List.mem_cons, List.not_mem_nil, or_false] at hlead ⊢
      tauto

theorem Misread.exists_parseHdPath {path : String} (h : Misread path.toList) :
    ∃ indexes, parseHdPath path = .ok indexes := by
  rcases h with h | h | ⟨cs, trail, indexes, h, hbody, htrail⟩
  · exact ⟨[], parseHdPath_eq_ok.mpr (.inl ⟨by rw [h]; rfl, rfl⟩)⟩
  · exact ⟨[], parseHdPath_eq_ok.mpr (.inl ⟨by rw [h]; rfl, rfl⟩)⟩
  · refine ⟨indexes, parseHdPath_eq_ok.mpr (.inr ?_)⟩
    have hcs : body (['m'] ++ cs ++ trail) = cs := body_eq hbody (by simp) htrail
    rw [h, ← List.singleton_append, hcs]
    exact hbody

/-- A path of the grammar does not start like a misread one. -/
theorem Misread.not_documented {path : List Char} (h : Misread path) (indexes : List UInt32) :
    ¬ Documented path indexes := by
  intro hdoc
  -- a body starts with a digit, where the misread path has an `m` or a slash
  cases hdoc with
  | root hroot =>
    simp only [List.mem_cons, List.not_mem_nil, or_false] at hroot
    rcases h with rfl | rfl | ⟨cs, trail, is, rfl, hbody, -⟩
    · simp at hroot
    · simp at hroot
    · obtain ⟨d, rest, rfl, hd⟩ := hbody.exists_cons
      simp at hroot
      exact (isDigit_ne hd).2 hroot.1
  | @segments lead cs trail indexes hlead hbody htrail =>
    obtain ⟨d, rest, rfl, hd⟩ := hbody.exists_cons
    obtain ⟨hdm, hdslash⟩ := isDigit_ne hd
    simp only [List.mem_cons, List.not_mem_nil, or_false] at hlead
    rcases h with h | h | ⟨cs', trail', is, h, hbody', -⟩
    · rcases hlead with rfl | rfl | rfl
      · exact hdslash (List.cons.inj h).1
      · cases (List.cons.inj h).1
      · exact hdslash (List.cons.inj (List.cons.inj h).2).1
    · rcases hlead with rfl | rfl | rfl
      · exact hdm (List.cons.inj h).1
      · exact hdslash (List.cons.inj (List.cons.inj (List.cons.inj h).2).2).1
      · cases (List.cons.inj h).1
    · obtain ⟨d', rest', rfl, hd'⟩ := hbody'.exists_cons
      rcases hlead with rfl | rfl | rfl
      · exact hdm (List.cons.inj h).1
      · exact (isDigit_ne hd').2 (List.cons.inj (List.cons.inj h).2).1.symm
      · cases (List.cons.inj h).1

variable [HdCrates]

/-- The parser accepts exactly the grammar with its indexes, and no index that it returns
fails the assertion of the derivation. -/
def GrammarMatched (path : String) : Prop :=
  (∀ indexes, parseHdPath path = .ok indexes ↔ Documented path.toList indexes) ∧
    ∀ indexes, parseHdPath path = .ok indexes →
      ∀ salt seed, deriveSlip10Node salt seed indexes ≠ none

/-- Every index that the parser returns has the hardened bit. -/
theorem deriveSlip10Node_ne_none {path : String} {indexes : List UInt32}
    (h : parseHdPath path = .ok indexes) (salt seed : Bytes) :
    deriveSlip10Node salt seed indexes ≠ none := by
  have hall : ∀ i ∈ indexes, i &&& NearKit.hardened ≠ 0 := by
    rcases parseHdPath_eq_ok.mp h with ⟨-, rfl⟩ | hbody
    · exact nofun
    · exact hbody.hardened
  obtain ⟨node, hnode⟩ := exists_deriveSlip10Node hall salt seed
  rw [hnode]
  exact Option.some_ne_none node

theorem Misread.not_grammarMatched {path : String} (h : Misread path.toList) :
    ¬ GrammarMatched path := by
  rintro ⟨hgrammar, -⟩
  obtain ⟨indexes, hparse⟩ := h.exists_parseHdPath
  exact h.not_documented indexes ((hgrammar indexes).mp hparse)

/-- The parser keeps to the grammar on all paths but the misread ones. -/
theorem grammarMatched_iff (path : String) : GrammarMatched path ↔ ¬ Misread path.toList := by
  constructor
  · exact fun hgrammar hmisread => hmisread.not_grammarMatched hgrammar
  · intro hnot
    refine ⟨fun indexes => ⟨fun h => ?_, Documented.parseHdPath⟩, ?_⟩
    · exact (documented_or_misread h).resolve_right hnot
    · exact fun indexes h => deriveSlip10Node_ne_none h

omit [HdCrates]

@[reducible] def zeroHmac : HdCrates where
  hmacSha512 _ _ := .zeros 64

/-- A repeated slash gives the master key, and an `m` without a slash another key. -/
theorem misread_paths :
    (parseHdPath "m//" = .ok [] ∧ ¬ Documented "m//".toList []) ∧
      (parseHdPath "m44H" = .ok [0x8000002C] ∧ ¬ Documented "m44H".toList [0x8000002C]) ∧
      ¬ @GrammarMatched zeroHmac "m//" := by
  have hslashes : Misread "m//".toList := .inr (.inl rfl)
  have hbody : IsBody ['4', '4', 'H'] [0x8000002C] :=
    ⟨[['4', '4', 'H']], by simp, by simp,
      .cons ⟨['4', '4'], 'H', rfl, by decide, rfl, by decide, by decide⟩ .nil⟩
  have hm : Misread "m44H".toList := .inr (.inr ⟨_, [], _, rfl, hbody, by simp⟩)
  refine ⟨⟨by decide, hslashes.not_documented _⟩, ⟨by decide, hm.not_documented _⟩, ?_⟩
  let _ := zeroHmac
  exact hslashes.not_grammarMatched

end HdPath
end NearKit
