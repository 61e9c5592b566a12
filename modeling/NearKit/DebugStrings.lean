import NearKit.FunctionCallErrors

/-!
# Quoted strings, whole and cut off

Which characters `Debug` writes by their number depends on the version of Unicode and on
their place, so it is a choice at every place here. The scanner reads a quoted string back
under every choice, and nothing from a string that is cut off before its closing quote.
-/
namespace NearKit

namespace Debug

def unicode (c : Char) : List Char :=
  backslash :: 'u' :: '{' :: (if c = null then ['0'] else hexDigits c) ++ ['}']

/-- A character by its number, or else as itself or by name. -/
def escapeAs : Bool → Char → List Char
  | true, c => unicode c
  | false, c => escapeChar (fun _ => false) c

/-- The text between the quotes, with the places of the characters written by number. -/
def escapeWith (byNumber : ℕ → Bool) : List Char → List Char
  | [] => []
  | c :: cs => escapeAs (byNumber 0) c ++ escapeWith (fun i => byNumber (i + 1)) cs

def strWith (byNumber : ℕ → Bool) (s : String) : List Char :=
  quote :: escapeWith byNumber s.toList ++ [quote]

/-- The characters with an escape of their own. -/
def named (c : Char) : Bool :=
  c == quote || c == backslash || c == newline || c == carriageReturn || c == tab || c == null

private theorem escapeChar_eq (byNumber : Char → Bool) (c : Char) :
    escapeChar byNumber c = escapeAs (byNumber c && !named c) c := by
  by_cases hnamed : named c = true
  · rw [hnamed, Bool.not_true, Bool.and_false]
    simp only [named, Bool.or_eq_true, beq_iff_eq] at hnamed
    obtain ((((h | h) | h) | h) | h) | h := hnamed
    all_goals
      rw [h]
      rfl
  · have hplain : named c = false := by simpa using hnamed
    have hne := hplain
    simp only [named, Bool.or_eq_false_iff, beq_eq_false_iff_ne] at hne
    obtain ⟨⟨⟨⟨⟨hquote, hbackslash⟩, hnewline⟩, hcr⟩, htab⟩, hnull⟩ := hne
    rw [hplain, Bool.not_false, Bool.and_true]
    cases hchosen : byNumber c <;>
      simp [escapeChar, escapeAs, unicode, hchosen, hquote, hbackslash, hnewline, hcr, htab, hnull]

/-- What is not written by number is one character, or a backslash and a name. -/
theorem escapeAs_false (c : Char) :
    escapeAs false c = [c] ∨ ∃ name, escapeAs false c = [backslash, name] := by
  rw [escapeAs, escapeChar]
  split_ifs with hquote hbackslash hnewline hcr htab hnull hnumber
  all_goals try exact .inr ⟨_, rfl⟩
  · cases hnumber
  · exact .inl rfl

theorem exists_strWith (byNumber : Char → Bool) (s : String) :
    ∃ places, str byNumber s = strWith places s := by
  have hescape (cs : List Char) : escape byNumber cs =
      escapeWith (fun i => cs[i]?.any fun c => byNumber c && !named c) cs := by
    unfold escape
    induction cs with
    | nil => rfl
    | cons c cs ih =>
      rw [List.flatMap_cons, ih, escapeChar_eq]
      rfl
  exact ⟨_, congrArg (fun body => quote :: body ++ [quote]) (hescape s.toList)⟩

end Debug

namespace DebugScan

theorem run_unicode (c : Char) (out cs : List Char) :
    run text out (Debug.unicode c ++ cs) = run text (c :: out) cs := by
  by_cases hnull : c = Debug.null
  · rw [hnull]
    rfl
  · have hscan : run text out (Debug.unicode c ++ cs) =
        run (hex []) out (Debug.hexDigits c ++ '}' :: cs) := by
      unfold Debug.unicode
      rw [if_neg hnull, List.append_assoc]
      rfl
    rw [hscan, run_hex (not_mem_hexDigits c), List.reverse_nil, List.nil_append,
      charFromU32_hexDigits hnull]

theorem run_escapeAs (byNumber : Bool) (c : Char) (out cs : List Char) :
    run text out (Debug.escapeAs byNumber c ++ cs) = run text (c :: out) cs := by
  cases byNumber with
  | true => exact run_unicode c out cs
  | false => exact run_escapeChar (fun _ => false) c out cs

private theorem run_escapeWith (byNumber : ℕ → Bool) (s out cs : List Char) :
    run text out (Debug.escapeWith byNumber s ++ cs) = run text (s.reverse ++ out) cs := by
  induction s generalizing byNumber out with
  | nil => rfl
  | cons c s ih =>
    rw [Debug.escapeWith, List.append_assoc, run_escapeAs, ih, List.reverse_cons,
      List.append_assoc, List.singleton_append]

/-! ## Strings that are cut off -/

theorem run_hex_eq_none {ds : List Char} (h : '}' ∉ ds) (digits out : List Char) :
    run (hex digits) out ds = none := by
  induction ds generalizing digits with
  | nil => rfl
  | cons d ds ih =>
    rw [run, if_neg (List.ne_of_not_mem_cons h).symm]
    exact ih (List.not_mem_of_not_mem_cons h) _

private theorem run_cut_unicode {c : Char} {p rest : List Char} (h : Debug.unicode c = p ++ rest)
    (hrest : rest ≠ []) (out : List Char) : run text out p = none := by
  obtain ⟨digits, hdigits, hbrace⟩ : ∃ digits,
      Debug.unicode c = Debug.backslash :: 'u' :: '{' :: digits ++ ['}'] ∧ '}' ∉ digits := by
    refine ⟨_, rfl, ?_⟩
    split
    · decide
    · exact not_mem_hexDigits c
  rw [hdigits] at h
  match p with
  | [] => rfl
  | [a] =>
    cases h
    rfl
  | [a, b] =>
    cases h
    rfl
  | a :: b :: d :: ds =>
    injection h with ha h
    injection h with hb h
    injection h with hd h
    -- what is left is a proper prefix of the digits and their brace
    have hds : ds <+: digits := by
      rcases List.prefix_concat_iff.mp ⟨rest, h.symm⟩ with hwhole | hds
      · rw [hwhole] at h
        exact absurd (List.append_right_eq_self.mp h.symm) hrest
      · exact hds
    rw [← ha, ← hb, ← hd]
    exact run_hex_eq_none (fun hmem => hbrace (hds.subset hmem)) [] out

private theorem nil_of_singleton_eq_append {α : Type} {x : α} {xs ys : List α} (h : [x] = xs ++ ys)
    (hys : ys ≠ []) : xs = [] := by
  rcases List.append_eq_singleton_iff.mp h.symm with ⟨hxs, -⟩ | ⟨-, hys'⟩
  · exact hxs
  · exact absurd hys' hys

private theorem run_cut_escapeAs {byNumber : Bool} {c : Char} {p rest : List Char}
    (h : Debug.escapeAs byNumber c = p ++ rest) (hrest : rest ≠ []) (out : List Char) :
    run text out p = none := by
  cases byNumber with
  | true => exact run_cut_unicode h hrest out
  | false =>
    rcases Debug.escapeAs_false c with hself | ⟨name, hname⟩
    · rw [hself] at h
      obtain rfl := nil_of_singleton_eq_append h hrest
      rfl
    · rw [hname] at h
      cases p with
      | nil => rfl
      | cons a p =>
        injection h with ha h
        obtain rfl := nil_of_singleton_eq_append h hrest
        rw [← ha]
        rfl

/-- Nothing is read from the text of a string before its closing quote. -/
theorem run_prefix_escapeWith {byNumber : ℕ → Bool} {s p : List Char}
    (h : p <+: Debug.escapeWith byNumber s) (out : List Char) : run text out p = none := by
  induction s generalizing byNumber p out with
  | nil =>
    rw [List.prefix_nil.mp h]
    rfl
  | cons c s ih =>
    obtain ⟨rest, hrest⟩ := h
    rcases List.append_eq_append_iff.mp hrest with ⟨cut, hescape, -⟩ | ⟨q, rfl, hq⟩
    · by_cases hcut : cut = []
      · have hwhole : p = Debug.escapeAs (byNumber 0) c ++ [] := by
          rw [hcut] at hescape
          rw [hescape, List.append_nil, List.append_nil]
        rw [hwhole, run_escapeAs]
        rfl
      · exact run_cut_escapeAs hescape hcut out
    · rw [run_escapeAs]
      exact ih ⟨rest, hq.symm⟩ _

end DebugScan

/-! ## Whole strings -/

private theorem parseDebugStr_quote (cs : List Char) :
    parseDebugStr (Debug.quote :: cs) = DebugScan.text.run [] cs := rfl

/-- Whatever follows a quoted string, the string is read back. Nothing is read from a part
of it that ends before the closing quote. -/
theorem parseDebugStr_inverts (s : String) (byNumber : ℕ → Bool) :
    (∀ rest, parseDebugStr (Debug.strWith byNumber s ++ rest) = some s.toList) ∧
      ∀ p, p <+: Debug.strWith byNumber s → p ≠ Debug.strWith byNumber s →
        parseDebugStr p = none := by
  constructor
  · intro rest
    have happend : Debug.strWith byNumber s ++ rest =
        Debug.quote :: (Debug.escapeWith byNumber s.toList ++ Debug.quote :: rest) := by
      unfold Debug.strWith
      rw [List.append_assoc]
      rfl
    rw [happend, parseDebugStr_quote, DebugScan.run_escapeWith, DebugScan.run, if_pos rfl,
      List.append_nil, List.reverse_reverse]
  · intro p hprefix hne
    cases p with
    | nil => rfl
    | cons a p =>
      obtain ⟨rfl, hp⟩ := List.cons_prefix_cons.mp hprefix
      rcases List.prefix_concat_iff.mp hp with rfl | hp
      · exact absurd rfl hne
      · rw [parseDebugStr_quote]
        exact DebugScan.run_prefix_escapeWith hp []

end NearKit
