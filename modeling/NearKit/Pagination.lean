import Mathlib.Data.Nat.Notation
import Mathlib.Data.List.Basic
import Mathlib.Data.List.Pairwise
import Mathlib.Tactic.Common

/-!
# Paging through a sorted list

A sorted list is read in pages. Each page is a part of what follows a cursor, and says by
a new cursor that there is more. Whoever appends the pages and follows the cursors has, at
any time, read the list up to the cursor.
-/
namespace NearKit.Pagination

/-- Entries with their cursors, and cursors with their positions in the order. -/
structure Cursors (ε γ κ : Type) where
  cursor : ε → γ
  position : γ → κ

variable {ε γ κ : Type} [LE κ] [LT κ] [Std.LawfulOrderLT κ] [Std.IsLinearOrder κ] [DecidableLT κ]

namespace Cursors
variable (c : Cursors ε γ κ)

def Sorted (entries : List ε) : Prop :=
  entries.Pairwise fun a b => c.position (c.cursor a) < c.position (c.cursor b)

instance (entries : List ε) : Decidable (c.Sorted entries) :=
  inferInstanceAs (Decidable (entries.Pairwise _))

/-- The entries strictly after a cursor, or all of them. -/
def after (entries : List ε) : Option γ → List ε
  | none => entries
  | some cursor => entries.filter fun e => c.position cursor < c.position (c.cursor e)

theorem after_cursor {seen rest : List ε} {e : ε} (h : c.Sorted (seen ++ e :: rest)) :
    c.after (seen ++ e :: rest) (some (c.cursor e)) = rest := by
  obtain ⟨-, htail, hseen⟩ := List.pairwise_append.mp h
  have hbefore : ∀ a ∈ seen, ¬ c.position (c.cursor e) < c.position (c.cursor a) := by
    intro a ha hlt
    exact Std.lt_irrefl (Std.lt_trans hlt (hseen a ha e List.mem_cons_self))
  have hself : ¬ c.position (c.cursor e) < c.position (c.cursor e) := Std.lt_irrefl
  have hafter : ∀ a ∈ rest, c.position (c.cursor e) < c.position (c.cursor a) :=
    (List.pairwise_cons.mp htail).1
  have hnone : seen.filter (fun a => c.position (c.cursor e) < c.position (c.cursor a)) = [] := by
    simpa [List.filter_eq_nil_iff] using hbefore
  have hall : rest.filter (fun a => c.position (c.cursor e) < c.position (c.cursor a)) = rest := by
    simpa [List.filter_eq_self] using hafter
  rw [after, List.filter_append, hnone, List.filter_cons_of_neg (by simpa using hself), hall,
    List.nil_append]

/-- A page of what is left: a part of it from its start, of at most `limit` entries, and
empty only if nothing is left. The new cursor is that of the last entry, if more remain. -/
structure IsPage (rest : List ε) (limit : ℕ) (items : List ε) (last : Option γ) : Prop where
  isPrefix : items <+: rest
  length_le : items.length ≤ limit
  nonempty : rest ≠ [] → items ≠ []
  last_of_all : items = rest → last = none
  last_of_more : items ≠ rest → last = items.getLast?.map c.cursor

def page (cap : ℕ) (rest : List ε) (limit : ℕ) : List ε × Option γ :=
  let items := rest.take (min cap limit)
  (items, if items.length < rest.length then items.getLast?.map c.cursor else none)

omit [LE κ] [LT κ] [Std.LawfulOrderLT κ] [Std.IsLinearOrder κ] [DecidableLT κ] in
theorem isPage_page {cap limit : ℕ} (hcap : 0 < cap) (hlimit : 0 < limit) (rest : List ε) :
    c.IsPage rest limit (c.page cap rest limit).1 (c.page cap rest limit).2 := by
  have hlen : (rest.take (min cap limit)).length = min (min cap limit) rest.length :=
    List.length_take
  constructor
  · exact List.take_prefix _ _
  · rw [page, hlen]
    omega
  · intro hrest hnil
    have hpos := List.length_pos_iff.mpr hrest
    have hzero := congrArg List.length hnil
    rw [page, hlen, List.length_nil] at hzero
    omega
  · intro hall
    have hsame := congrArg List.length hall
    simp only [page] at hsame ⊢
    rw [if_neg (by omega)]
  · intro hmore
    have hshort : (rest.take (min cap limit)).length < rest.length := by
      by_contra hge
      apply hmore
      exact List.take_of_length_le (by omega)
    simp only [page]
    rw [if_pos hshort]

/-- The entries have been read up to the cursor, or to the end if there is none. -/
inductive ReadTo (entries : List ε) : List ε → Option γ → Prop where
  | all : ReadTo entries entries none
  | upTo {seen rest : List ε} {cursor : γ} (split : entries = seen ++ rest) (left : rest ≠ [])
      (next : c.after entries (some cursor) = rest) : ReadTo entries seen (some cursor)

/-- One more page reads on, and at least one entry further. -/
theorem ReadTo.page {entries seen rest items : List ε} {limit : ℕ} {last : Option γ}
    (hsorted : c.Sorted entries) (split : entries = seen ++ rest)
    (h : c.IsPage rest limit items last) :
    c.ReadTo entries (seen ++ items) last ∧ (rest ≠ [] → seen.length < (seen ++ items).length) := by
  obtain ⟨rest', rfl⟩ := h.isPrefix
  constructor
  · by_cases hrest : rest' = []
    · subst hrest
      rw [List.append_nil] at split
      rw [h.last_of_all (List.append_nil _).symm, ← split]
      exact .all
    · have hne : items ≠ [] := h.nonempty (by simp [hrest])
      have hmore : items ≠ items ++ rest' := by simpa using hrest
      obtain ⟨init, e, rfl⟩ : ∃ init e, items = init ++ [e] :=
        ⟨items.dropLast, items.getLast hne, (List.dropLast_append_getLast hne).symm⟩
      rw [h.last_of_more hmore, List.getLast?_append]
      refine .upTo (by simp [split]) hrest ?_
      have hsplit : entries = (seen ++ init) ++ e :: rest' := by
        rw [split]
        simp
      rw [hsplit] at hsorted ⊢
      exact c.after_cursor hsorted
  · intro hrest
    have hpos := List.length_pos_iff.mpr (h.nonempty hrest)
    rw [List.length_append]
    omega

end Cursors
end NearKit.Pagination
