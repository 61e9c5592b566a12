import NearKit.BorshReader
import Mathlib.Logic.Equiv.Defs
import Mathlib.Tactic.Ring

/-!
# Codecs and their laws

A codec pairs an encoder that may refuse a value with a decoder that consumes a
prefix of its input. Three predicates describe a codec: `fits` holds of the values
the encoder writes, `valid` of the values the decoder can return, and `plain` of the
values whose encoding is the only accepted one.
-/
namespace NearKit.Borsh

structure Codec (α : Type) where
  write : α → Except IoError Bytes
  read : Reader α

variable {α β γ : Type}

namespace Codec

/-- No encoding is a proper prefix of another: equal streams start with equal values. -/
def PrefixFree (c : Codec α) : Prop :=
  ∀ {x y : α} {p q r s : Bytes}, c.write x = .ok p → c.write y = .ok q →
    p ++ r = q ++ s → x = y ∧ r = s

/-- What is proved once for each codec. The decoder inverts the encoder whatever
follows in the stream, and an accepted plain value is re-encoded to the bytes read. -/
structure Lawful (c : Codec α) (fits valid plain : α → Prop) : Prop where
  fits_iff : ∀ x, fits x ↔ ∃ p, c.write x = .ok p
  read_write : ∀ {x p}, valid x → c.write x = .ok p → ∀ rest, c.read (p ++ rest) = .ok (x, rest)
  valid_of_read : ∀ {bs x rest}, c.read bs = .ok (x, rest) → valid x
  write_read : ∀ {bs x rest}, c.read bs = .ok (x, rest) → plain x →
    ∃ p, c.write x = .ok p ∧ bs = p ++ rest
  prefixFree : c.PrefixFree

theorem PrefixFree.of_read_write {c : Codec α}
    (h : ∀ {x p}, c.write x = .ok p → ∀ rest, c.read (p ++ rest) = .ok (x, rest)) :
    c.PrefixFree := by
  intro x y p q r s hp hq hs
  have hr := h hp r
  rw [hs, h hq s] at hr
  simpa [eq_comm] using hr

/-- The whole byte string of a value, `borsh::to_vec`. -/
def toVec (c : Codec α) (x : α) : Except IoError Bytes := c.write x

def fromSlice (c : Codec α) (bs : Bytes) : Except IoError α := c.read.complete bs

namespace Lawful
variable {c : Codec α} {fits valid plain : α → Prop}

theorem congr {fits' valid' plain' : α → Prop} (h : c.Lawful fits valid plain)
    (hf : ∀ x, fits' x ↔ fits x) (hv : ∀ x, valid' x ↔ valid x) (hp : ∀ x, plain' x → plain x) :
    c.Lawful fits' valid' plain' where
  fits_iff x := (hf x).trans (h.fits_iff x)
  read_write hx hw := h.read_write ((hv _).mp hx) hw
  valid_of_read hr := (hv _).mpr (h.valid_of_read hr)
  write_read hr hx := h.write_read hr (hp _ hx)
  prefixFree := h.prefixFree

theorem fromSlice_toVec (h : c.Lawful fits valid plain) {x : α} {p : Bytes}
    (hx : valid x) (hw : c.toVec x = .ok p) : c.fromSlice p = .ok x := by
  have hr := h.read_write hx hw []
  rw [List.append_nil] at hr
  exact Reader.complete_eq_ok.mpr hr

theorem toVec_fromSlice (h : c.Lawful fits valid plain) {x : α} {bs : Bytes}
    (hr : c.fromSlice bs = .ok x) (hx : plain x) : c.toVec x = .ok bs := by
  obtain ⟨p, hw, hb⟩ := h.write_read (Reader.complete_eq_ok.mp hr) hx
  rw [List.append_nil] at hb
  rw [hb]
  exact hw

theorem toVec_injective (h : c.Lawful fits valid plain) {x y : α} {p : Bytes}
    (hp : c.toVec x = .ok p) (hq : c.toVec y = .ok p) : x = y :=
  (h.prefixFree hp hq (rfl : p ++ [] = p ++ [])).1

end Lawful

/-! ## Records -/

def pair (a : Codec α) (b : Codec β) : Codec (α × β) where
  write x := seq (a.write x.1) (b.write x.2)
  read := do
    let x ← a.read
    let y ← b.read
    pure (x, y)

theorem pair_read_eq_ok {a : Codec α} {b : Codec β} {bs rest : Bytes} {x : α} {y : β} :
    (a.pair b).read bs = .ok ((x, y), rest) ↔
      ∃ mid, a.read bs = .ok (x, mid) ∧ b.read mid = .ok (y, rest) := by
  simp only [Codec.pair, Reader.bind_eq_ok, Reader.pure_apply, Except.ok.injEq, Prod.mk.injEq]
  constructor
  · rintro ⟨x', mid, hx, y', rest', hy, ⟨rfl, rfl⟩, rfl⟩
    exact ⟨mid, hx, hy⟩
  · rintro ⟨mid, hx, hy⟩
    exact ⟨x, mid, hx, y, rest, hy, ⟨rfl, rfl⟩, rfl⟩

theorem Lawful.pair {a : Codec α} {b : Codec β} {fa va pa : α → Prop} {fb vb pb : β → Prop}
    (ha : a.Lawful fa va pa) (hb : b.Lawful fb vb pb) :
    (a.pair b).Lawful (fun x => fa x.1 ∧ fb x.2) (fun x => va x.1 ∧ vb x.2)
      (fun x => pa x.1 ∧ pb x.2) where
  fits_iff x := by
    simp only [Codec.pair, seq_eq_ok, ha.fits_iff, hb.fits_iff]
    constructor
    · rintro ⟨⟨p, hp⟩, q, hq⟩
      exact ⟨p ++ q, p, q, hp, hq, rfl⟩
    · rintro ⟨_, p, q, hp, hq, -⟩
      exact ⟨⟨p, hp⟩, q, hq⟩
  read_write := by
    rintro ⟨x, y⟩ _ ⟨hx, hy⟩ hw rest
    obtain ⟨p, q, hp, hq, rfl⟩ := seq_eq_ok.mp hw
    rw [List.append_assoc]
    simp only [Codec.pair]
    rw [Reader.bind_of_ok (ha.read_write hx hp (q ++ rest)),
      Reader.bind_of_ok (hb.read_write hy hq rest)]
    rfl
  valid_of_read hr := by
    obtain ⟨x, mid, hx, hr⟩ := Reader.bind_eq_ok.mp hr
    obtain ⟨y, _, hy, hr⟩ := Reader.bind_eq_ok.mp hr
    cases hr
    exact ⟨ha.valid_of_read hx, hb.valid_of_read hy⟩
  write_read hr hp := by
    obtain ⟨x, mid, hx, hr⟩ := Reader.bind_eq_ok.mp hr
    obtain ⟨y, _, hy, hr⟩ := Reader.bind_eq_ok.mp hr
    cases hr
    obtain ⟨p, hwp, rfl⟩ := ha.write_read hx hp.1
    obtain ⟨q, hwq, rfl⟩ := hb.write_read hy hp.2
    exact ⟨p ++ q, seq_eq_ok.mpr ⟨p, q, hwp, hwq, rfl⟩, (List.append_assoc ..).symm⟩
  prefixFree := by
    rintro ⟨x₁, x₂⟩ ⟨y₁, y₂⟩ _ _ r s hx hy hs
    obtain ⟨p₁, p₂, hp₁, hp₂, rfl⟩ := seq_eq_ok.mp hx
    obtain ⟨q₁, q₂, hq₁, hq₂, rfl⟩ := seq_eq_ok.mp hy
    rw [List.append_assoc, List.append_assoc] at hs
    obtain ⟨h₁, hs⟩ := ha.prefixFree hp₁ hq₁ hs
    obtain ⟨h₂, hs⟩ := hb.prefixFree hp₂ hq₂ hs
    exact ⟨Prod.ext h₁ h₂, hs⟩

/-- A record is written as the tuple of its fields in declaration order. -/
def iso (c : Codec α) (e : β ≃ α) : Codec β where
  write x := c.write (e x)
  read := e.symm <$> c.read

theorem iso_read_eq_ok {c : Codec α} {e : β ≃ α} {bs rest : Bytes} {x : β} :
    (c.iso e).read bs = .ok (x, rest) ↔ c.read bs = .ok (e x, rest) := by
  refine Reader.map_eq_ok.trans ⟨?_, fun h => ⟨e x, h, e.symm_apply_apply x⟩⟩
  rintro ⟨y, hy, rfl⟩
  rwa [e.apply_symm_apply]

theorem Lawful.iso {c : Codec α} {fits valid plain : α → Prop} (h : c.Lawful fits valid plain)
    (e : β ≃ α) :
    (c.iso e).Lawful (fun x => fits (e x)) (fun x => valid (e x)) (fun x => plain (e x)) where
  fits_iff x := h.fits_iff (e x)
  read_write hx hw rest := by
    simpa [Codec.iso] using Reader.map_of_ok (g := e.symm) (h.read_write hx hw rest)
  valid_of_read hr := by
    obtain ⟨x, hx, rfl⟩ := Reader.map_eq_ok.mp hr
    simpa using h.valid_of_read hx
  write_read hr hp := by
    obtain ⟨x, hx, rfl⟩ := Reader.map_eq_ok.mp hr
    simpa [Codec.iso] using h.write_read hx (by simpa using hp)
  prefixFree hx hy hs := (h.prefixFree hx hy hs).imp_left fun he => e.injective he

def unit : Codec Unit where
  write _ := .ok []
  read := pure ()

theorem lawful_unit : unit.Lawful (fun _ => True) (fun _ => True) (fun _ => True) where
  fits_iff _ := by simp [unit]
  read_write _ hw rest := by
    cases hw
    rfl
  valid_of_read _ := trivial
  write_read hr _ := by
    cases hr
    exact ⟨[], rfl, rfl⟩
  prefixFree := by
    rintro ⟨⟩ ⟨⟩ p q r s hp hq hs
    cases hp
    cases hq
    exact ⟨rfl, hs⟩

/-- A codec restricted to the values that pass a check the decoder makes. -/
def guarded (c : Codec α) (check : α → Option β) (forget : β → α) (e : IoError) : Codec β where
  write x := c.write (forget x)
  read := do
    let a ← c.read
    match check a with
    | some x => pure x
    | none => Reader.fail e

theorem Lawful.guarded {c : Codec α} {fits valid plain : α → Prop} (h : c.Lawful fits valid plain)
    {check : α → Option β} {forget : β → α} {q : β → Prop} (e : IoError)
    (hf : Function.Injective forget)
    (hc : ∀ a x, check a = some x ↔ forget x = a ∧ q x) :
    (c.guarded check forget e).Lawful (fun x => fits (forget x))
      (fun x => valid (forget x) ∧ q x) (fun x => plain (forget x)) where
  fits_iff x := h.fits_iff (forget x)
  read_write hx hw rest := by
    have hcheck := (hc _ _).mpr ⟨rfl, hx.2⟩
    simp only [Codec.guarded]
    rw [Reader.bind_of_ok (h.read_write hx.1 hw rest), hcheck]
    rfl
  valid_of_read hr := by
    obtain ⟨a, mid, ha, hr⟩ := Reader.bind_eq_ok.mp hr
    cases hx : check a with
    | none => simp [hx] at hr
    | some x =>
      simp only [hx, Reader.pure_apply, Except.ok.injEq, Prod.mk.injEq] at hr
      obtain ⟨rfl, rfl⟩ := hr
      obtain ⟨rfl, hok⟩ := (hc _ _).mp hx
      exact ⟨h.valid_of_read ha, hok⟩
  write_read hr hp := by
    obtain ⟨a, mid, ha, hr⟩ := Reader.bind_eq_ok.mp hr
    cases hx : check a with
    | none => simp [hx] at hr
    | some x =>
      simp only [hx, Reader.pure_apply, Except.ok.injEq, Prod.mk.injEq] at hr
      obtain ⟨rfl, rfl⟩ := hr
      obtain ⟨rfl, -⟩ := (hc _ _).mp hx
      exact h.write_read ha hp
  prefixFree hx hy hs := (h.prefixFree hx hy hs).imp_left fun he => hf he

end Codec
end NearKit.Borsh
