import NearKit.DebugText
import Mathlib.Data.List.Induction

/-!
# Shapes of scanned text

What each scanning function finds: prefixes and suffixes, the text inside the white space
around it, and the places in the UTF-8 bytes where a text can be cut.
-/
namespace NearKit.Text

/-! ## Prefixes and suffixes -/

theorem stripPrefix_eq_some {ps cs rest : List Char} :
    stripPrefix ps cs = some rest ↔ cs = ps ++ rest := by
  constructor
  · intro h
    induction ps generalizing cs with
    | nil =>
      cases h
      rfl
    | cons p ps ih =>
      cases cs with
      | nil => cases h
      | cons c cs =>
        rw [stripPrefix] at h
        split at h
        · next hp => rw [hp, ih h, List.cons_append]
        · cases h
  · rintro rfl
    exact stripPrefix_append ps rest

def stripSuffix (suffix cs : List Char) : Option (List Char) :=
  (stripPrefix suffix.reverse cs.reverse).map List.reverse

theorem stripSuffix_eq_some {suffix cs rest : List Char} :
    stripSuffix suffix cs = some rest ↔ cs = rest ++ suffix := by
  have hreverse : stripSuffix suffix cs = some rest ↔
      stripPrefix suffix.reverse cs.reverse = some rest.reverse := by
    unfold stripSuffix
    rw [Option.map_eq_some_iff]
    constructor
    · rintro ⟨r, hr, rfl⟩
      rwa [List.reverse_reverse]
    · exact fun h => ⟨_, h, List.reverse_reverse rest⟩
  rw [hreverse, stripPrefix_eq_some, ← List.reverse_append, List.reverse_inj]

theorem stripSuffix_append (rest suffix : List Char) :
    stripSuffix suffix (rest ++ suffix) = some rest :=
  stripSuffix_eq_some.mpr rfl

/-- A text is split in one way at the last character of a kind. -/
theorem append_cons_inj_of_last {p : Char → Prop} {xs ys us vs : List Char} {a b : Char}
    (ha : p a) (hb : p b) (hus : ∀ c ∈ us, ¬ p c) (hvs : ∀ c ∈ vs, ¬ p c)
    (h : xs ++ a :: us = ys ++ b :: vs) : xs = ys ∧ a = b ∧ us = vs := by
  rcases List.append_eq_append_iff.mp h with ⟨as, hys, has⟩ | ⟨as, hxs, has⟩
  · cases as with
    | nil =>
      obtain ⟨rfl, rfl⟩ := List.cons.inj has
      exact ⟨by simpa using hys.symm, rfl, rfl⟩
    | cons c as =>
      obtain ⟨rfl, rfl⟩ := List.cons.inj has
      exact absurd hb (hus b (by simp))
  · cases as with
    | nil =>
      obtain ⟨rfl, rfl⟩ := List.cons.inj has
      exact ⟨by simpa using hxs, rfl, rfl⟩
    | cons c as =>
      obtain ⟨rfl, rfl⟩ := List.cons.inj has
      exact absurd ha (hvs a (by simp))

/-- The text without a character in front, if it is there. -/
def dropPrefix (c : Char) (cs : List Char) : List Char := (stripPrefix [c] cs).getD cs

/-- The text without a character at its end, if it is there. -/
def dropSuffix (c : Char) (cs : List Char) : List Char := (stripSuffix [c] cs).getD cs

@[simp] theorem dropPrefix_cons (c : Char) (cs : List Char) : dropPrefix c (c :: cs) = cs := by
  simp [dropPrefix, stripPrefix]

theorem dropPrefix_of_head {c : Char} {cs : List Char} (h : cs.head? ≠ some c) :
    dropPrefix c cs = cs := by
  cases cs with
  | nil => rfl
  | cons d cs =>
    have hne : ¬ c = d := by
      rintro rfl
      exact h rfl
    simp [dropPrefix, stripPrefix, hne]

theorem dropPrefix_cases (c : Char) (cs : List Char) :
    cs = c :: dropPrefix c cs ∨ dropPrefix c cs = cs := by
  by_cases h : cs.head? = some c
  · obtain ⟨ds, rfl⟩ := List.head?_eq_some_iff.mp h
    exact .inl (by rw [dropPrefix_cons])
  · exact .inr (dropPrefix_of_head h)

@[simp] theorem dropSuffix_concat (c : Char) (cs : List Char) : dropSuffix c (cs ++ [c]) = cs := by
  rw [dropSuffix, stripSuffix_append, Option.getD_some]

theorem dropSuffix_of_last {c : Char} {cs : List Char} (h : cs.getLast? ≠ some c) :
    dropSuffix c cs = cs := by
  unfold dropSuffix
  cases hstrip : stripSuffix [c] cs with
  | none => rfl
  | some rest =>
    rw [stripSuffix_eq_some.mp hstrip, List.getLast?_concat] at h
    exact absurd rfl h

theorem dropSuffix_cases (c : Char) (cs : List Char) :
    cs = dropSuffix c cs ++ [c] ∨ dropSuffix c cs = cs := by
  by_cases h : cs.getLast? = some c
  · obtain ⟨ds, rfl⟩ := List.getLast?_eq_some_iff.mp h
    exact .inl (by rw [dropSuffix_concat])
  · exact .inr (dropSuffix_of_last h)

/-! ## White space around a text -/

def AllWhite (cs : List Char) : Prop := ∀ c ∈ cs, isWhitespace c = true

/-- There is no white space at either end. -/
structure Trimmed (cs : List Char) : Prop where
  head : ∀ c ∈ cs.head?, isWhitespace c = false
  last : ∀ c ∈ cs.getLast?, isWhitespace c = false

theorem AllWhite.append {xs ys : List Char} (hx : AllWhite xs) (hy : AllWhite ys) :
    AllWhite (xs ++ ys) :=
  List.forall_mem_append.mpr ⟨hx, hy⟩

theorem trimmed_of_noWhite {cs : List Char} (h : ∀ c ∈ cs, isWhitespace c = false) :
    Trimmed cs where
  head c hc := h c (List.mem_of_mem_head? hc)
  last c hc := h c (List.mem_of_getLast? hc)

/-- A text from one that starts without white space to one that ends without. -/
theorem Trimmed.append {xs ys : List Char} (hx : Trimmed xs) (hxne : xs ≠ []) (hy : Trimmed ys)
    (hyne : ys ≠ []) (zs : List Char) : Trimmed (xs ++ zs ++ ys) where
  head c hc := by
    rw [List.append_assoc, List.head?_append_of_ne_nil _ hxne] at hc
    exact hx.head c hc
  last c hc := by
    rw [List.getLast?_append_of_ne_nil _ hyne] at hc
    exact hy.last c hc

private theorem dropWhile_append {xs ys : List Char} (hx : AllWhite xs) :
    (xs ++ ys).dropWhile isWhitespace = ys.dropWhile isWhitespace := by
  induction xs with
  | nil => rfl
  | cons x xs ih =>
    obtain ⟨hx, hxs⟩ := List.forall_mem_cons.mp hx
    rw [List.cons_append, List.dropWhile_cons_of_pos hx, ih hxs]

private theorem dropWhile_of_head {cs : List Char} (h : ∀ c ∈ cs.head?, isWhitespace c = false) :
    cs.dropWhile isWhitespace = cs := by
  cases cs with
  | nil => rfl
  | cons c cs =>
    have hc : isWhitespace c = false := h c rfl
    exact List.dropWhile_cons_of_neg (by simp [hc])

/-- The text between two runs of white space. -/
theorem trim_eq {pre cs post : List Char} (hpre : AllWhite pre) (h : Trimmed cs)
    (hpost : AllWhite post) : trim (pre ++ cs ++ post) = cs := by
  have hstart : trimStart (pre ++ cs ++ post) = (cs ++ post).dropWhile isWhitespace := by
    rw [List.append_assoc]
    exact dropWhile_append hpre
  have hreverse : AllWhite post.reverse := fun c hc => hpost c (List.mem_reverse.mp hc)
  unfold trim trimEnd
  rw [hstart]
  cases cs with
  | nil =>
    have hall : (([] : List Char) ++ post).dropWhile isWhitespace = [] := by
      simpa [AllWhite] using hpost
    rw [hall]
    rfl
  | cons c cs =>
    have hhead : ∀ d ∈ (c :: cs ++ post).head?, isWhitespace d = false := h.head
    rw [dropWhile_of_head hhead, List.reverse_append, dropWhile_append hreverse]
    rw [dropWhile_of_head, List.reverse_reverse]
    rw [List.head?_reverse]
    exact h.last

theorem trim_of_trimmed {cs : List Char} (h : Trimmed cs) : trim cs = cs := by
  have heq : trim ([] ++ cs ++ []) = cs := trim_eq nofun h nofun
  rwa [List.nil_append, List.append_nil] at heq

/-- Every text is its trimmed part between two runs of white space. -/
theorem exists_trim (cs : List Char) :
    ∃ pre post, cs = pre ++ trim cs ++ post ∧ AllWhite pre ∧ AllWhite post ∧ Trimmed (trim cs) := by
  have hstart : cs = cs.takeWhile isWhitespace ++ trimStart cs :=
    (List.takeWhile_append_dropWhile).symm
  have hend : trimStart cs =
      trim cs ++ ((trimStart cs).reverse.takeWhile isWhitespace).reverse := by
    have h := (trimStart cs).reverse.takeWhile_append_dropWhile (p := isWhitespace)
    have hreverse := congrArg List.reverse h
    rw [List.reverse_append, List.reverse_reverse] at hreverse
    exact hreverse.symm
  refine ⟨cs.takeWhile isWhitespace, ((trimStart cs).reverse.takeWhile isWhitespace).reverse,
    ?_, ?_, ?_, ?_, ?_⟩
  · rw [List.append_assoc, ← hend, ← hstart]
  · exact fun c hc => List.mem_takeWhile_imp hc
  · exact fun c hc => List.mem_takeWhile_imp (List.mem_reverse.mp hc)
  · intro c hc
    have hne : trim cs ≠ [] := by
      intro hnil
      rw [hnil] at hc
      cases hc
    have hhead := List.head?_dropWhile_not isWhitespace cs
    have hsame : (cs.dropWhile isWhitespace).head? = some c := by
      have heq : (trimStart cs).head? = (trim cs).head? := by
        rw [hend]
        exact List.head?_append_of_ne_nil _ hne
      exact heq.trans (Option.mem_def.mp hc)
    rw [hsame] at hhead
    exact hhead
  · intro c hc
    have hlast := List.head?_dropWhile_not isWhitespace (trimStart cs).reverse
    have hsame : ((trimStart cs).reverse.dropWhile isWhitespace).head? = some c := by
      rw [← List.getLast?_reverse]
      exact Option.mem_def.mp hc
    rw [hsame] at hlast
    exact hlast

theorem trimmed_trim (cs : List Char) : Trimmed (trim cs) := by
  obtain ⟨pre, post, -, -, -, h⟩ := exists_trim cs
  exact h

/-! ## Cutting at a byte -/

/-- The number of UTF-8 bytes. -/
def byteLength (cs : List Char) : ℕ := (cs.map Char.utf8Size).sum

@[simp] theorem byteLength_nil : byteLength [] = 0 := rfl

theorem byteLength_cons (c : Char) (cs : List Char) :
    byteLength (c :: cs) = c.utf8Size + byteLength cs := by
  simp [byteLength]

theorem byteLength_append (xs ys : List Char) :
    byteLength (xs ++ ys) = byteLength xs + byteLength ys := by
  simp [byteLength]

theorem utf8Size_of_ascii {c : Char} (h : c.toNat < 128) : c.utf8Size = 1 := by
  have hval : c.val.toNat ≤ 0x7f := by
    have hlt : c.val.toNat < 128 := h
    omega
  exact if_pos (UInt32.le_iff_toNat_le.mpr hval)

theorem byteLength_of_ascii {cs : List Char} (h : ∀ c ∈ cs, c.toNat < 128) :
    byteLength cs = cs.length := by
  induction cs with
  | nil => rfl
  | cons c cs ih =>
    obtain ⟨hc, hcs⟩ := List.forall_mem_cons.mp h
    rw [byteLength_cons, utf8Size_of_ascii hc, ih hcs, List.length_cons, Nat.add_comm]

/-- A text is cut exactly where a part of that many bytes ends. -/
theorem splitAtByte_eq_some {n : ℕ} {cs xs ys : List Char} :
    splitAtByte n cs = some (xs, ys) ↔ cs = xs ++ ys ∧ byteLength xs = n := by
  fun_induction splitAtByte n cs generalizing xs with
  | case1 cs =>
    constructor
    · intro h
      cases h
      exact ⟨rfl, rfl⟩
    · rintro ⟨rfl, h⟩
      cases xs with
      | nil => rfl
      | cons x xs =>
        have hpos := x.utf8Size_pos
        rw [byteLength_cons] at h
        omega
  | case2 n =>
    constructor
    · exact nofun
    · rintro ⟨h, hlen⟩
      rw [(List.append_eq_nil_iff.mp h.symm).1] at hlen
      cases hlen
  | case3 n c cs hle ih =>
    rw [Option.map_eq_some_iff]
    constructor
    · rintro ⟨⟨xs', ys'⟩, hcut, heq⟩
      cases heq
      obtain ⟨rfl, hlen⟩ := ih.mp hcut
      refine ⟨rfl, ?_⟩
      show byteLength (c :: xs') = n + 1
      rw [byteLength_cons]
      omega
    · rintro ⟨heq, hlen⟩
      cases xs with
      | nil => cases hlen
      | cons x xs =>
        rw [List.cons_append] at heq
        obtain ⟨rfl, rfl⟩ := List.cons.inj heq
        rw [byteLength_cons] at hlen
        exact ⟨(xs, ys), ih.mpr ⟨rfl, by omega⟩, rfl⟩
  | case4 n c cs hlt =>
    constructor
    · exact nofun
    · rintro ⟨heq, hlen⟩
      cases xs with
      | nil => cases hlen
      | cons x xs =>
        rw [List.cons_append] at heq
        obtain ⟨rfl, rfl⟩ := List.cons.inj heq
        rw [byteLength_cons] at hlen
        omega

theorem splitAtByte_append (xs ys : List Char) :
    splitAtByte (byteLength xs) (xs ++ ys) = some (xs, ys) :=
  splitAtByte_eq_some.mpr ⟨rfl, rfl⟩

end NearKit.Text
