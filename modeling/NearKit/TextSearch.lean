import NearKit.TextShapes

/-!
# Searching text

Where a scanner finds a character or a pattern: the two sides of the first or the last one,
and the byte at which the first character of a kind begins.
-/
namespace NearKit

/-! ## Splitting at a character -/

def splitOnceChars (c : Char) : List Char → Option (List Char × List Char)
  | [] => none
  | x :: xs => if x = c then some ([], xs) else (splitOnceChars c xs).map (Prod.map (x :: ·) id)

/-- `str::split_once` at a character. -/
def splitOnce (c : Char) (s : String) : Option (String × String) :=
  (splitOnceChars c s.toList).map (Prod.map String.ofList String.ofList)

theorem splitOnceChars_append {c : Char} {xs : List Char} (h : c ∉ xs) (ys : List Char) :
    splitOnceChars c (xs ++ c :: ys) = some (xs, ys) := by
  induction xs with
  | nil => exact if_pos rfl
  | cons x xs ih =>
    have hne := List.ne_of_not_mem_cons h
    have hxs := List.not_mem_of_not_mem_cons h
    rw [List.cons_append, splitOnceChars, if_neg (Ne.symm hne), ih hxs]
    rfl

/-- The first occurrence of a character splits a text in one way. -/
theorem sides_unique {c : Char} {xs ys us vs : List Char} (hxs : c ∉ xs) (hus : c ∉ us)
    (h : xs ++ c :: ys = us ++ c :: vs) : xs = us ∧ ys = vs := by
  have hsplit := splitOnceChars_append hxs ys
  rw [h, splitOnceChars_append hus] at hsplit
  cases hsplit
  exact ⟨rfl, rfl⟩

theorem splitOnceChars_eq_some {c : Char} {cs xs ys : List Char}
    (h : splitOnceChars c cs = some (xs, ys)) : cs = xs ++ c :: ys := by
  induction cs generalizing xs with
  | nil => cases h
  | cons x cs ih =>
    unfold splitOnceChars at h
    split at h
    · next hx =>
      cases h
      rw [hx]
      rfl
    · obtain ⟨⟨xs', ys'⟩, hsplit, heq⟩ := Option.map_eq_some_iff.mp h
      cases heq
      rw [ih hsplit]
      rfl

/-- The split is at the first such character. -/
theorem splitOnceChars_eq_some_iff {c : Char} {cs xs ys : List Char} :
    splitOnceChars c cs = some (xs, ys) ↔ cs = xs ++ c :: ys ∧ c ∉ xs := by
  constructor
  · intro h
    refine ⟨splitOnceChars_eq_some h, ?_⟩
    induction cs generalizing xs with
    | nil => cases h
    | cons x cs ih =>
      unfold splitOnceChars at h
      split at h
      · cases h
        exact List.not_mem_nil
      · next hx =>
        obtain ⟨⟨xs', ys'⟩, hsplit, heq⟩ := Option.map_eq_some_iff.mp h
        cases heq
        exact List.not_mem_cons_of_ne_of_not_mem (Ne.symm hx) (ih hsplit)
  · rintro ⟨rfl, h⟩
    exact splitOnceChars_append h ys

theorem splitOnceChars_eq_none {c : Char} {cs : List Char} :
    splitOnceChars c cs = none ↔ c ∉ cs := by
  constructor
  · intro h hmem
    obtain ⟨xs, ys, rfl, hxs⟩ := List.eq_append_cons_of_mem hmem
    rw [splitOnceChars_append hxs] at h
    cases h
  · intro h
    cases hsplit : splitOnceChars c cs with
    | none => rfl
    | some parts =>
      obtain ⟨xs, ys⟩ := parts
      rw [splitOnceChars_eq_some hsplit] at h
      exact absurd (List.mem_append_right _ List.mem_cons_self) h

theorem splitOnce_append {c : Char} {s : String} (h : c ∉ s.toList) (t : String) :
    splitOnce c (s ++ String.singleton c ++ t) = some (s, t) := by
  have hlist : (s ++ String.singleton c ++ t).toList = s.toList ++ c :: t.toList := by simp
  unfold splitOnce
  rw [hlist, splitOnceChars_append h, Option.map_some, Prod.map_apply, String.ofList_toList,
    String.ofList_toList]

theorem splitOnce_eq_some {c : Char} {s t u : String} (h : splitOnce c s = some (t, u)) :
    s = t ++ String.singleton c ++ u := by
  obtain ⟨⟨xs, ys⟩, hsplit, heq⟩ := Option.map_eq_some_iff.mp h
  cases heq
  rw [← String.ofList_toList (s := s), splitOnceChars_eq_some hsplit]
  apply String.toList_inj.mp
  simp

/-- `str::rsplit_once` at a character. -/
def rsplitOnceChars (c : Char) (cs : List Char) : Option (List Char × List Char) :=
  (splitOnceChars c cs.reverse).map fun sides => (sides.2.reverse, sides.1.reverse)

/-- The split is at the last such character. -/
theorem rsplitOnceChars_append {c : Char} {ys : List Char} (h : c ∉ ys) (xs : List Char) :
    rsplitOnceChars c (xs ++ c :: ys) = some (xs, ys) := by
  have hreverse : (xs ++ c :: ys).reverse = ys.reverse ++ c :: xs.reverse := by simp
  have hys : c ∉ ys.reverse := fun hc => h (List.mem_reverse.mp hc)
  unfold rsplitOnceChars
  rw [hreverse, splitOnceChars_append hys, Option.map_some, List.reverse_reverse,
    List.reverse_reverse]

theorem rsplitOnceChars_of_not_mem {c : Char} {cs : List Char} (h : c ∉ cs) :
    rsplitOnceChars c cs = none := by
  have hreverse : c ∉ cs.reverse := fun hc => h (List.mem_reverse.mp hc)
  unfold rsplitOnceChars
  rw [splitOnceChars_eq_none.mpr hreverse, Option.map_none]

namespace Text

/-! ## Splitting at a pattern -/

/-- `str::split_once` at a string. -/
def splitOnceStr (pattern : List Char) : List Char → Option (List Char × List Char)
  | [] => (stripPrefix pattern []).map ([], ·)
  | c :: cs =>
    match stripPrefix pattern (c :: cs) with
    | some rest => some ([], rest)
    | none => (splitOnceStr pattern cs).map (Prod.map (c :: ·) id)

theorem splitOnceStr_eq_some {pattern cs xs ys : List Char}
    (h : splitOnceStr pattern cs = some (xs, ys)) : cs = xs ++ (pattern ++ ys) := by
  fun_induction splitOnceStr pattern cs generalizing xs with
  | case1 =>
    obtain ⟨rest, hstrip, heq⟩ := Option.map_eq_some_iff.mp h
    have hcut : [] = pattern ++ rest := stripPrefix_eq_some.mp hstrip
    cases heq
    exact hcut
  | case2 c cs rest hstrip =>
    have hcut : c :: cs = pattern ++ rest := stripPrefix_eq_some.mp hstrip
    cases h
    exact hcut
  | case3 c cs hstrip ih =>
    obtain ⟨⟨xs', ys'⟩, hsplit, heq⟩ := Option.map_eq_some_iff.mp h
    cases heq
    exact congrArg (c :: ·) (ih hsplit)

/-- A pattern is found behind a text without its first character. -/
theorem splitOnceStr_append {p : Char} {ps xs : List Char} (h : p ∉ xs) (ys : List Char) :
    splitOnceStr (p :: ps) (xs ++ (p :: ps ++ ys)) = some (xs, ys) := by
  induction xs with
  | nil =>
    have hstrip : stripPrefix (p :: ps) (p :: (ps ++ ys)) = some ys := stripPrefix_append _ _
    simp only [List.nil_append, List.cons_append, splitOnceStr, hstrip]
  | cons x xs ih =>
    have hne := List.ne_of_not_mem_cons h
    have hxs := List.not_mem_of_not_mem_cons h
    have hstrip : stripPrefix (p :: ps) (x :: (xs ++ (p :: ps ++ ys))) = none := if_neg hne
    simp only [List.cons_append, splitOnceStr] at hstrip ih ⊢
    rw [hstrip, ih hxs]
    rfl

/-! ## The first character of a kind -/

/-- `str::find`: the byte at which the character begins. -/
def find (p : Char → Bool) : List Char → Option ℕ
  | [] => none
  | c :: cs => if p c then some 0 else (find p cs).map (c.utf8Size + ·)

theorem find_eq_none {p : Char → Bool} {cs : List Char} (h : ∀ c ∈ cs, p c = false) :
    find p cs = none := by
  induction cs with
  | nil => rfl
  | cons c cs ih =>
    obtain ⟨hc, hcs⟩ := List.forall_mem_cons.mp h
    rw [find, hc, if_neg Bool.false_ne_true, ih hcs, Option.map_none]

theorem find_append_cons {p : Char → Bool} {xs : List Char} {c : Char}
    (h : ∀ x ∈ xs, p x = false) (hc : p c = true) (ys : List Char) :
    find p (xs ++ c :: ys) = some (byteLength xs) := by
  induction xs with
  | nil => exact if_pos hc
  | cons x xs ih =>
    obtain ⟨hx, hxs⟩ := List.forall_mem_cons.mp h
    rw [List.cons_append, find, hx, if_neg Bool.false_ne_true, ih hxs, Option.map_some,
      byteLength_cons]

theorem beq_of_not_mem {c : Char} {cs : List Char} (h : c ∉ cs) : ∀ d ∈ cs, (d == c) = false := by
  intro d hd
  have hne : d ≠ c := ne_of_mem_of_not_mem hd h
  simpa using hne

theorem find_char {c : Char} {xs : List Char} (h : c ∉ xs) (ys : List Char) :
    find (· == c) (xs ++ c :: ys) = some (byteLength xs) :=
  find_append_cons (beq_of_not_mem h) (by simp) ys

theorem find_char_eq_none {c : Char} {cs : List Char} (h : c ∉ cs) : find (· == c) cs = none :=
  find_eq_none (beq_of_not_mem h)

/-- What stands from the first character of a kind on. -/
def StartsAt (p : Char → Bool) (cs : List Char) : Prop := ∀ c ∈ cs.head?, p c = true

theorem StartsAt.append {p : Char → Bool} {xs ys : List Char} (hxs : StartsAt p xs)
    (hys : StartsAt p ys) : StartsAt p (xs ++ ys) := by
  cases xs with
  | nil => exact hys
  | cons x xs => exact hxs

theorem StartsAt.imp {p q : Char → Bool} {cs : List Char} (h : StartsAt p cs)
    (hpq : ∀ c, p c = true → q c = true) : StartsAt q cs :=
  fun c hc => hpq c (h c hc)

/-- A text is cut in front of the first character of a kind, or at its end. -/
theorem splitAtByte_find {p : Char → Bool} {xs ys : List Char} (h : ∀ x ∈ xs, p x = false)
    (hys : StartsAt p ys) :
    splitAtByte ((find p (xs ++ ys)).getD (byteLength (xs ++ ys))) (xs ++ ys) = some (xs, ys) := by
  cases ys with
  | nil =>
    have hnone : find p (xs ++ []) = none := find_eq_none (by simpa using h)
    rw [hnone, Option.getD_none, List.append_nil]
    exact splitAtByte_eq_some.mpr ⟨(List.append_nil xs).symm, rfl⟩
  | cons c ys =>
    rw [find_append_cons h (hys c rfl), Option.getD_some]
    exact splitAtByte_append xs (c :: ys)

/-- There is one such place in a text. -/
theorem startsAt_unique {p : Char → Bool} {xs ys us vs : List Char} (hxs : ∀ x ∈ xs, p x = false)
    (hys : StartsAt p ys) (hus : ∀ u ∈ us, p u = false) (hvs : StartsAt p vs)
    (h : xs ++ ys = us ++ vs) : xs = us ∧ ys = vs := by
  have hcut := splitAtByte_find hxs hys
  rw [h, splitAtByte_find hus hvs] at hcut
  cases hcut
  exact ⟨rfl, rfl⟩

theorem exists_startsAt (p : Char → Bool) (cs : List Char) :
    ∃ xs ys, cs = xs ++ ys ∧ (∀ x ∈ xs, p x = false) ∧ StartsAt p ys := by
  induction cs with
  | nil => exact ⟨[], [], rfl, nofun, nofun⟩
  | cons c cs ih =>
    cases hc : p c with
    | true =>
      refine ⟨[], c :: cs, rfl, nofun, ?_⟩
      rintro d ⟨⟩
      exact hc
    | false =>
      obtain ⟨xs, ys, rfl, hxs, hys⟩ := ih
      exact ⟨c :: xs, ys, rfl, List.forall_mem_cons.mpr ⟨hc, hxs⟩, hys⟩

end Text
end NearKit
