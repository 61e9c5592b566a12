import NearKit.BorshPrimitives

/-!
# Derived enum codecs

A derived enum writes the position of the variant in declaration order as one byte,
then the variant's payload. The decoder reads that byte and goes on with the payload
of the variant at that position.
-/
namespace NearKit.Borsh

/-- The variants of an enum in declaration order, with the discriminant of each. -/
structure Variants (ι : Type) where
  all : List ι
  toU8 : ι → UInt8
  mem_all : ∀ i, i ∈ all
  positions : all.map (fun i => (toU8 i).toNat) = List.range all.length

namespace Variants
variable {ι : Type}

def ofU8 (v : Variants ι) (tag : UInt8) : Option ι := v.all[tag.toNat]?

theorem toU8_of_getElem {v : Variants ι} {n : ℕ} {i : ι} (h : v.all[n]? = some i) :
    (v.toU8 i).toNat = n := by
  have hlt : n < v.all.length := (List.getElem?_eq_some_iff.mp h).1
  have hmap : (v.all.map (fun i => (v.toU8 i).toNat))[n]? = some (v.toU8 i).toNat := by
    rw [List.getElem?_map, h]
    rfl
  rw [v.positions, List.getElem?_range hlt] at hmap
  exact (Option.some.inj hmap).symm

theorem ofU8_eq_some {v : Variants ι} {tag : UInt8} {i : ι} :
    v.ofU8 tag = some i ↔ tag = v.toU8 i := by
  constructor
  · intro h
    exact UInt8.toNat_inj.mp (toU8_of_getElem h).symm
  · rintro rfl
    obtain ⟨n, hlt, hn⟩ := List.getElem_of_mem (v.mem_all i)
    have hn : v.all[n]? = some i := List.getElem?_eq_some_iff.mpr ⟨hlt, hn⟩
    rw [ofU8, toU8_of_getElem hn, hn]

theorem toU8_injective (v : Variants ι) : Function.Injective v.toU8 := by
  intro i j h
  have hi := ofU8_eq_some.mpr h
  rw [ofU8_eq_some.mpr rfl] at hi
  exact (Option.some.inj hi)

def single : Variants Unit where
  all := [()]
  toU8 _ := 0
  mem_all _ := by simp
  positions := rfl

end Variants

namespace Codec
variable {ι : Type} {β : ι → Type}

/-- `deserialize_variant`: the payload of an enum whose discriminant has been read. -/
def deserializeVariant (v : Variants ι) (c : ∀ i, Codec (β i)) (tag : UInt8) :
    Reader (Σ i, β i) :=
  match v.ofU8 tag with
  | some i => Sigma.mk i <$> (c i).read
  | none => Reader.fail (unexpectedTag tag)

theorem deserializeVariant_eq_ok {v : Variants ι} {c : ∀ i, Codec (β i)} {tag : UInt8}
    {bs rest : Bytes} {x : Σ i, β i} :
    deserializeVariant v c tag bs = .ok (x, rest) ↔
      tag = v.toU8 x.1 ∧ (c x.1).read bs = .ok (x.2, rest) := by
  unfold deserializeVariant
  constructor
  · intro h
    cases hi : v.ofU8 tag with
    | none => simp [hi] at h
    | some i =>
      simp only [hi] at h
      obtain ⟨y, hy, rfl⟩ := Reader.map_eq_ok.mp h
      exact ⟨Variants.ofU8_eq_some.mp hi, hy⟩
  · rintro ⟨rfl, hy⟩
    rw [Variants.ofU8_eq_some.mpr rfl]
    exact Reader.map_of_ok hy

def enum (v : Variants ι) (c : ∀ i, Codec (β i)) : Codec (Σ i, β i) where
  write x := tagged (v.toU8 x.1) ((c x.1).write x.2)
  read := readTagged (deserializeVariant v c)

theorem Lawful.enum {c : ∀ i, Codec (β i)} {fits valid plain : ∀ i, β i → Prop} (v : Variants ι)
    (h : ∀ i, (c i).Lawful (fits i) (valid i) (plain i)) :
    (Codec.enum v c).Lawful (fun x => fits x.1 x.2) (fun x => valid x.1 x.2)
      (fun x => plain x.1 x.2) where
  fits_iff x := by
    rw [(h x.1).fits_iff]
    simp [Codec.enum, tagged_eq_ok]
  read_write {x p} hx hw rest := by
    obtain ⟨q, hq, rfl⟩ := tagged_eq_ok.mp hw
    refine (readTagged_cons _ _ _).trans (deserializeVariant_eq_ok.mpr ⟨rfl, ?_⟩)
    exact (h x.1).read_write hx hq rest
  valid_of_read {bs x rest} hr := by
    obtain ⟨tag, mid, rfl, hv⟩ := readTagged_eq_ok.mp hr
    exact (h x.1).valid_of_read (deserializeVariant_eq_ok.mp hv).2
  write_read {bs x rest} hr hp := by
    obtain ⟨tag, mid, rfl, hv⟩ := readTagged_eq_ok.mp hr
    obtain ⟨rfl, hx⟩ := deserializeVariant_eq_ok.mp hv
    obtain ⟨q, hq, rfl⟩ := (h x.1).write_read hx hp
    exact ⟨v.toU8 x.1 :: q, tagged_eq_ok.mpr ⟨q, hq, rfl⟩, rfl⟩
  prefixFree := by
    rintro ⟨i, x⟩ ⟨j, y⟩ _ _ r s hx hy hs
    obtain ⟨p, hp, rfl⟩ := tagged_eq_ok.mp hx
    obtain ⟨q, hq, rfl⟩ := tagged_eq_ok.mp hy
    have hcons := List.cons.inj hs
    obtain rfl : i = j := v.toU8_injective hcons.1
    exact ((h i).prefixFree hp hq hcons.2).imp_left (congrArg (Sigma.mk i))

end Codec
end NearKit.Borsh
