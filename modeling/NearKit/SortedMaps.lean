import NearKit.BorshPrimitives
import Mathlib.Data.List.Pairwise

/-!
# Sorted association maps and their codec

A `BTreeMap` is its list of entries in strictly ascending key order. Its encoding is
the sequence of the entries; the decoder collects the pairs it reads, a later pair
replacing an earlier one of the same key, after an optional check of their order.
-/
namespace NearKit

/-- The entries of a `BTreeMap`, which its ordering makes canonical. -/
structure SortedMap (κ ν : Type) [LT κ] where
  entries : List (κ × ν)
  sorted : entries.Pairwise (fun a b => a.1 < b.1)

namespace SortedMap
variable {κ ν : Type}

@[ext] theorem ext [LT κ] {m n : SortedMap κ ν} (h : m.entries = n.entries) : m = n := by
  cases m; cases n; cases h; rfl

instance [LT κ] [DecidableEq κ] [DecidableEq ν] : DecidableEq (SortedMap κ ν) := fun m n =>
  decidable_of_iff (m.entries = n.entries) ⟨ext, congrArg entries⟩

variable [LE κ] [LT κ] [Std.LawfulOrderLT κ] [Std.IsLinearOrder κ]
variable [DecidableLT κ] [DecidableEq κ]

def empty : SortedMap κ ν := ⟨[], .nil⟩

/-- Replace the value of a key, or put the key in its place. -/
def insertEntry (k : κ) (v : ν) : List (κ × ν) → List (κ × ν)
  | [] => [(k, v)]
  | (k', v') :: es =>
    if k < k' then (k, v) :: (k', v') :: es
    else if k = k' then (k, v) :: es
    else (k', v') :: insertEntry k v es

omit [LE κ] [Std.LawfulOrderLT κ] [Std.IsLinearOrder κ] in
theorem fst_mem_insertEntry {k : κ} {v : ν} {es : List (κ × ν)} {e : κ × ν}
    (h : e ∈ insertEntry k v es) : e = (k, v) ∨ e ∈ es := by
  induction es with
  | nil => simpa [insertEntry] using h
  | cons e' es ih =>
    simp only [insertEntry] at h
    split at h
    · simpa using h
    · split at h
      · rcases List.mem_cons.mp h with h | h
        · exact .inl h
        · exact .inr (List.mem_cons_of_mem _ h)
      · rcases List.mem_cons.mp h with rfl | h
        · exact .inr List.mem_cons_self
        · exact (ih h).imp_right (List.mem_cons_of_mem _)

theorem sorted_insertEntry {k : κ} {v : ν} {es : List (κ × ν)}
    (h : es.Pairwise (fun a b => a.1 < b.1)) :
    (insertEntry k v es).Pairwise (fun a b => a.1 < b.1) := by
  induction es with
  | nil => simp [insertEntry]
  | cons e es ih =>
    obtain ⟨hhead, htail⟩ := List.pairwise_cons.mp h
    simp only [insertEntry]
    split
    · next hlt =>
      refine List.pairwise_cons.mpr ⟨?_, h⟩
      intro e' he'
      rcases List.mem_cons.mp he' with rfl | he'
      · exact hlt
      · exact Std.lt_trans hlt (hhead e' he')
    · split
      · next heq => exact List.pairwise_cons.mpr ⟨fun e' he' => heq ▸ hhead e' he', htail⟩
      · next hlt hne =>
        have hgt : e.1 < k := Std.lt_of_le_of_ne (Std.not_lt.mp hlt) (Ne.symm hne)
        refine List.pairwise_cons.mpr ⟨?_, ih htail⟩
        intro e' he'
        rcases fst_mem_insertEntry he' with rfl | he'
        · exact hgt
        · exact hhead e' he'

def insert (m : SortedMap κ ν) (k : κ) (v : ν) : SortedMap κ ν :=
  ⟨insertEntry k v m.entries, sorted_insertEntry m.sorted⟩

/-- Collecting pairs into a map, each inserted in turn. -/
def ofList (es : List (κ × ν)) : SortedMap κ ν :=
  es.foldl (fun m e => m.insert e.1 e.2) empty

private theorem insertEntry_last {k : κ} {v : ν} {es : List (κ × ν)}
    (h : ∀ e ∈ es, e.1 < k) : insertEntry k v es = es ++ [(k, v)] := by
  induction es with
  | nil => rfl
  | cons e es ih =>
    obtain ⟨he, hes⟩ := List.forall_mem_cons.mp h
    have hlt : ¬ k < e.1 := Std.not_lt.mpr (Std.le_of_lt he)
    have hne : ¬ k = e.1 := fun hk => Std.ne_of_lt he hk.symm
    simp [insertEntry, hlt, hne, ih hes]

private theorem foldl_insert_sorted {es : List (κ × ν)} {m : SortedMap κ ν}
    (h : (m.entries ++ es).Pairwise (fun a b => a.1 < b.1)) :
    (es.foldl (fun m e => m.insert e.1 e.2) m).entries = m.entries ++ es := by
  induction es generalizing m with
  | nil => simp
  | cons e es ih =>
    have hlast : (m.insert e.1 e.2).entries = m.entries ++ [e] :=
      insertEntry_last fun e' he' =>
        (List.pairwise_append.mp h).2.2 e' he' e List.mem_cons_self
    rw [List.foldl_cons, ih (by rwa [hlast, List.append_assoc]), hlast, List.append_assoc]
    rfl

/-- Entries already in ascending order are collected unchanged. -/
theorem entries_ofList {es : List (κ × ν)} (h : es.Pairwise (fun a b => a.1 < b.1)) :
    (ofList es).entries = es := by
  simpa [ofList, empty] using foldl_insert_sorted (m := empty) h

theorem ofList_entries (m : SortedMap κ ν) : ofList m.entries = m :=
  ext (entries_ofList m.sorted)

omit [LE κ] [Std.LawfulOrderLT κ] [Std.IsLinearOrder κ] in
private theorem perm_insertEntry {k : κ} {v : ν} {es : List (κ × ν)} (h : ∀ e ∈ es, e.1 ≠ k) :
    (insertEntry k v es).Perm ((k, v) :: es) := by
  induction es with
  | nil => exact .refl _
  | cons e es ih =>
    obtain ⟨he, hes⟩ := List.forall_mem_cons.mp h
    simp only [insertEntry]
    split
    · exact .refl _
    · rw [if_neg (Ne.symm he)]
      exact ((ih hes).cons e).trans (.swap _ _ _)

private theorem perm_foldl_insert {es : List (κ × ν)} {m : SortedMap κ ν}
    (h : ((es ++ m.entries).map Prod.fst).Nodup) :
    (es.foldl (fun m e => m.insert e.1 e.2) m).entries.Perm (es ++ m.entries) := by
  induction es generalizing m with
  | nil => exact .refl _
  | cons e es ih =>
    rw [List.cons_append, List.map_cons, List.nodup_cons] at h
    obtain ⟨hnew, hrest⟩ := h
    have hinsert : (m.insert e.1 e.2).entries.Perm (e :: m.entries) := by
      refine perm_insertEntry fun e' he' heq => hnew ?_
      exact List.mem_map.mpr ⟨e', List.mem_append_right _ he', heq⟩
    have hmiddle : (es ++ (m.insert e.1 e.2).entries).Perm (e :: (es ++ m.entries)) :=
      (hinsert.append_left es).trans List.perm_middle
    have hnodup : ((es ++ (m.insert e.1 e.2).entries).map Prod.fst).Nodup :=
      (hmiddle.map Prod.fst).nodup_iff.mpr (List.nodup_cons.mpr ⟨hnew, hrest⟩)
    exact (ih hnodup).trans hmiddle

/-- Entries of distinct keys are all kept. -/
theorem perm_ofList {es : List (κ × ν)} (h : (es.map Prod.fst).Nodup) :
    (ofList es).entries.Perm es := by
  have hperm : (ofList es).entries.Perm (es ++ []) :=
    perm_foldl_insert (m := empty) (by simpa [empty] using h)
  rwa [List.append_nil] at hperm

end SortedMap

namespace Borsh
variable {κ ν : Type} [LE κ] [LT κ] [Std.LawfulOrderLT κ] [Std.IsLinearOrder κ]
variable [DecidableLT κ] [DecidableEq κ]

def wrongOrderOfKeys : IoError :=
  ⟨.invalidData, "keys were not serialized in ascending order"⟩

namespace Codec

/-- The codec of a `BTreeMap`. Borsh checks the order of the keys it reads only when
it is built to (`strictOrder`). -/
def sortedMap (strictOrder : Bool) (k : Codec κ) (v : Codec ν) : Codec (SortedMap κ ν) where
  write m := (vec (k.pair v)).write m.entries
  read := do
    let es ← (vec (k.pair v)).read
    if strictOrder = true ∧ ¬ es.Pairwise (fun a b => a.1 < b.1) then
      Reader.fail wrongOrderOfKeys
    else pure (.ofList es)

theorem Lawful.sortedMap {k : Codec κ} {v : Codec ν} {fk : κ → Prop} {fv : ν → Prop}
    (hk : k.Lawful fk (fun _ => True) (fun _ => True))
    (hv : v.Lawful fv (fun _ => True) (fun _ => True)) (strictOrder : Bool) :
    (Codec.sortedMap strictOrder k v).Lawful
      (fun m => m.entries.length < 2 ^ 32 ∧ ∀ e ∈ m.entries, fk e.1 ∧ fv e.2)
      (fun _ => True) (fun _ => strictOrder = true) where
  fits_iff m := (hk.pair hv).vec.fits_iff m.entries
  read_write {m p} _ hw rest := by
    have hr := (hk.pair hv).vec.read_write (fun _ _ => ⟨trivial, trivial⟩) hw rest
    refine (Reader.bind_of_ok hr).trans ?_
    rw [if_neg (fun h => h.2 m.sorted), SortedMap.ofList_entries]
    rfl
  valid_of_read _ := trivial
  write_read hr hstrict := by
    obtain ⟨es, mid, hes, hr⟩ := Reader.bind_eq_ok.mp hr
    split at hr
    · cases hr
    · next hsorted =>
      cases hr
      have hsorted : es.Pairwise (fun a b => a.1 < b.1) := by
        by_contra h
        exact hsorted ⟨hstrict, h⟩
      simp only [Codec.sortedMap, SortedMap.entries_ofList hsorted]
      exact (hk.pair hv).vec.write_read hes (fun _ _ => ⟨trivial, trivial⟩)
  prefixFree hx hy hs := ((hk.pair hv).vec.prefixFree hx hy hs).imp_left SortedMap.ext

end Codec
end Borsh
end NearKit
