import NearKit.BorshCodec
import Mathlib.Tactic.Linarith

/-!
# The primitive codecs

Integers are little-endian, a sequence or a string is prefixed by its length as a
`u32`, an option by one byte. A length beyond `u32::MAX` is refused by the encoder.
-/
namespace NearKit.Borsh

/-! ## Little-endian numerals -/

/-- The `k` low bytes of `n`, least significant first. -/
def leBytes : ℕ → ℕ → Bytes
  | 0, _ => []
  | k + 1, n => UInt8.ofNat n :: leBytes k (n / 256)

def leNat : Bytes → ℕ
  | [] => 0
  | b :: bs => b.toNat + 256 * leNat bs

@[simp] theorem length_leBytes (k n : ℕ) : (leBytes k n).length = k := by
  induction k generalizing n with
  | zero => rfl
  | succ k ih => simp [leBytes, ih]

theorem leNat_lt (bs : Bytes) : leNat bs < 256 ^ bs.length := by
  induction bs with
  | nil => simp [leNat]
  | cons b bs ih =>
    have hb := UInt8.toNat_lt b
    simp only [leNat, List.length_cons, pow_succ]
    omega

theorem leNat_leBytes {k n : ℕ} (h : n < 256 ^ k) : leNat (leBytes k n) = n := by
  induction k generalizing n with
  | zero => simp_all [leBytes, leNat]
  | succ k ih =>
    have hq : n / 256 < 256 ^ k := by
      rw [pow_succ] at h
      omega
    simp only [leBytes, leNat, ih hq, UInt8.toNat_ofNat']
    omega

theorem leBytes_leNat (bs : Bytes) : leBytes bs.length (leNat bs) = bs := by
  induction bs with
  | nil => rfl
  | cons b bs ih =>
    have hb := UInt8.toNat_lt b
    have hq : (b.toNat + 256 * leNat bs) / 256 = leNat bs := by omega
    have hr : UInt8.ofNat (b.toNat + 256 * leNat bs) = b := by
      apply UInt8.toNat_inj.mp
      rw [UInt8.toNat_ofNat']
      omega
    simp only [List.length_cons, leNat, leBytes, hq, hr, ih]

variable {α β : Type}

namespace Codec

/-- A `k`-byte unsigned integer type, given by its conversions with `ℕ`. -/
def uint (k : ℕ) (toNat : α → ℕ) (ofNat : ℕ → α) : Codec α where
  write x := .ok (leBytes k (toNat x))
  read := (fun v : ByteArr k => ofNat (leNat v.val)) <$> Reader.exactly unexpectedLength k

theorem lawful_uint {k : ℕ} {toNat : α → ℕ} {ofNat : ℕ → α} (hlt : ∀ x, toNat x < 256 ^ k)
    (hto : ∀ n < 256 ^ k, toNat (ofNat n) = n) (hof : ∀ x, ofNat (toNat x) = x) :
    (uint k toNat ofNat).Lawful (fun _ => True) (fun _ => True) (fun _ => True) := by
  have hread : ∀ {x p}, (uint k toNat ofNat).write x = .ok p →
      ∀ rest, (uint k toNat ofNat).read (p ++ rest) = .ok (x, rest) := by
    intro x p hw rest
    have hp : leBytes k (toNat x) = p := by simpa [uint] using hw
    subst hp
    have hr := Reader.exactly_append unexpectedLength
      (⟨leBytes k (toNat x), length_leBytes k _⟩ : ByteArr k) rest
    simpa only [uint, leNat_leBytes (hlt x), hof] using Reader.map_of_ok
      (g := fun v : ByteArr k => ofNat (leNat v.val)) hr
  refine ⟨fun x => by simp [uint], fun _ hw => hread hw, fun _ => trivial, ?_,
    PrefixFree.of_read_write hread⟩
  intro bs x rest hr _
  obtain ⟨⟨bs, hk⟩, hx, rfl⟩ := Reader.map_eq_ok.mp hr
  subst hk
  refine ⟨bs, ?_, Reader.exactly_eq_ok.mp hx⟩
  simp only [uint, hto _ (leNat_lt bs), leBytes_leNat]

def u8 : Codec UInt8 := uint 1 UInt8.toNat UInt8.ofNat
def u16 : Codec UInt16 := uint 2 UInt16.toNat UInt16.ofNat
def u32 : Codec UInt32 := uint 4 UInt32.toNat UInt32.ofNat
def u64 : Codec UInt64 := uint 8 UInt64.toNat UInt64.ofNat
def u128 : Codec (BitVec 128) := uint 16 BitVec.toNat (BitVec.ofNat 128)

theorem lawful_u8 : u8.Lawful (fun _ => True) (fun _ => True) (fun _ => True) :=
  lawful_uint (fun x => UInt8.toNat_lt x)
    (fun _ h => UInt8.toNat_ofNat_of_lt' h) (fun _ => UInt8.ofNat_toNat)

theorem lawful_u16 : u16.Lawful (fun _ => True) (fun _ => True) (fun _ => True) :=
  lawful_uint (fun x => UInt16.toNat_lt x)
    (fun _ h => UInt16.toNat_ofNat_of_lt' h) (fun _ => UInt16.ofNat_toNat)

theorem lawful_u32 : u32.Lawful (fun _ => True) (fun _ => True) (fun _ => True) :=
  lawful_uint (fun x => UInt32.toNat_lt x)
    (fun _ h => UInt32.toNat_ofNat_of_lt' h) (fun _ => UInt32.ofNat_toNat)

theorem lawful_u64 : u64.Lawful (fun _ => True) (fun _ => True) (fun _ => True) :=
  lawful_uint (fun x => UInt64.toNat_lt x)
    (fun _ h => UInt64.toNat_ofNat_of_lt' h) (fun _ => UInt64.ofNat_toNat)

theorem lawful_u128 : u128.Lawful (fun _ => True) (fun _ => True) (fun _ => True) :=
  lawful_uint (fun x => x.isLt)
    (fun n h => by simpa using Nat.mod_eq_of_lt h) (fun x => by simp)

theorem u8_write (t : UInt8) : u8.write t = .ok [t] := by
  simp [u8, uint, leBytes]

theorem u8_read_cons (t : UInt8) (bs : Bytes) : u8.read (t :: bs) = .ok (t, bs) :=
  lawful_u8.read_write trivial (u8_write t) bs

theorem u8_read_eq_ok {t : UInt8} {bs rest : Bytes} :
    u8.read bs = .ok (t, rest) ↔ bs = t :: rest := by
  refine ⟨fun h => ?_, fun h => h ▸ u8_read_cons t rest⟩
  obtain ⟨p, hp, rfl⟩ := lawful_u8.write_read h trivial
  cases (u8_write t).symm.trans hp
  rfl

/-! ## Fixed-size arrays, sequences, options and strings -/

/-- `n` bytes as they are, with the error of a short stream. -/
def rawBytes (e : IoError) (n : ℕ) : Codec (ByteArr n) where
  write v := .ok v.val
  read := Reader.exactly e n

theorem lawful_rawBytes (e : IoError) (n : ℕ) :
    (rawBytes e n).Lawful (fun _ => True) (fun _ => True) (fun _ => True) where
  fits_iff v := by simp [rawBytes]
  read_write {v p} _ hw rest := by
    cases hw
    exact Reader.exactly_append _ v rest
  valid_of_read _ := trivial
  write_read {_ v _} hr _ := ⟨v.val, rfl, Reader.exactly_eq_ok.mp hr⟩
  prefixFree {v w p q r s} hp hq hs := by
    cases hp
    cases hq
    obtain ⟨h, hs⟩ := List.append_inj hs (v.2.trans w.2.symm)
    exact ⟨Subtype.ext h, hs⟩

def array (n : ℕ) : Codec (ByteArr n) := rawBytes unexpectedLength n

theorem lawful_array (n : ℕ) :
    (array n).Lawful (fun _ => True) (fun _ => True) (fun _ => True) :=
  lawful_rawBytes _ n

def writeMany (w : α → Except IoError Bytes) : List α → Except IoError Bytes
  | [] => .ok []
  | x :: xs => seq (w x) (writeMany w xs)

def readMany (r : Reader α) : ℕ → Reader (List α)
  | 0 => pure []
  | n + 1 => do
    let x ← r
    let xs ← readMany r n
    pure (x :: xs)

theorem fits_writeMany {c : Codec α} {fits valid plain : α → Prop}
    (h : c.Lawful fits valid plain) (xs : List α) :
    (∀ x ∈ xs, fits x) ↔ ∃ p, writeMany c.write xs = .ok p := by
  induction xs with
  | nil => simp [writeMany]
  | cons x xs ih =>
    rw [List.forall_mem_cons, ih, h.fits_iff]
    simp only [writeMany, seq_eq_ok]
    constructor
    · rintro ⟨⟨p, hp⟩, q, hq⟩
      exact ⟨p ++ q, p, q, hp, hq, rfl⟩
    · rintro ⟨_, p, q, hp, hq, -⟩
      exact ⟨⟨p, hp⟩, q, hq⟩

theorem readMany_writeMany {c : Codec α} {fits valid plain : α → Prop}
    (h : c.Lawful fits valid plain) {xs : List α} {p : Bytes} (hx : ∀ x ∈ xs, valid x)
    (hw : writeMany c.write xs = .ok p) (rest : Bytes) :
    readMany c.read xs.length (p ++ rest) = .ok (xs, rest) := by
  induction xs generalizing p with
  | nil =>
    cases hw
    rfl
  | cons x xs ih =>
    obtain ⟨q, r, hq, hr, rfl⟩ := seq_eq_ok.mp hw
    obtain ⟨hx, hxs⟩ := List.forall_mem_cons.mp hx
    rw [List.append_assoc]
    simp only [List.length_cons, readMany]
    rw [Reader.bind_of_ok (h.read_write hx hq (r ++ rest)), Reader.bind_of_ok (ih hxs hr)]
    rfl

theorem readMany_spec {c : Codec α} {fits valid plain : α → Prop}
    (h : c.Lawful fits valid plain) {n : ℕ} {bs rest : Bytes} {xs : List α}
    (hr : readMany c.read n bs = .ok (xs, rest)) :
    xs.length = n ∧ (∀ x ∈ xs, valid x) ∧
      ((∀ x ∈ xs, plain x) → ∃ p, writeMany c.write xs = .ok p ∧ bs = p ++ rest) := by
  induction n generalizing bs xs with
  | zero =>
    cases hr
    exact ⟨rfl, by simp, fun _ => ⟨[], rfl, rfl⟩⟩
  | succ n ih =>
    obtain ⟨x, mid, hx, hr⟩ := Reader.bind_eq_ok.mp hr
    obtain ⟨xs', _, hxs, hr⟩ := Reader.bind_eq_ok.mp hr
    cases hr
    obtain ⟨hlen, hvalid, hplain⟩ := ih hxs
    refine ⟨by simp [hlen], ?_, ?_⟩
    · exact List.forall_mem_cons.mpr ⟨h.valid_of_read hx, hvalid⟩
    · intro hp
      obtain ⟨hpx, hpxs⟩ := List.forall_mem_cons.mp hp
      obtain ⟨p, hwp, rfl⟩ := h.write_read hx hpx
      obtain ⟨q, hwq, rfl⟩ := hplain hpxs
      exact ⟨p ++ q, seq_eq_ok.mpr ⟨p, q, hwp, hwq, rfl⟩, (List.append_assoc ..).symm⟩

theorem writeMany_prefixFree {c : Codec α} (h : c.PrefixFree) {xs ys : List α}
    {p q r s : Bytes} (hlen : xs.length = ys.length) (hp : writeMany c.write xs = .ok p)
    (hq : writeMany c.write ys = .ok q) (hs : p ++ r = q ++ s) : xs = ys ∧ r = s := by
  induction xs generalizing ys p q with
  | nil =>
    obtain rfl := List.length_eq_zero_iff.mp hlen.symm
    cases hp
    cases hq
    exact ⟨rfl, hs⟩
  | cons x xs ih =>
    obtain ⟨y, ys, rfl⟩ := List.exists_cons_of_length_eq_add_one hlen.symm
    obtain ⟨p₁, p₂, hp₁, hp₂, rfl⟩ := seq_eq_ok.mp hp
    obtain ⟨q₁, q₂, hq₁, hq₂, rfl⟩ := seq_eq_ok.mp hq
    rw [List.append_assoc, List.append_assoc] at hs
    obtain ⟨rfl, hs⟩ := h hp₁ hq₁ hs
    obtain ⟨rfl, hs⟩ := ih (Nat.succ.inj hlen) hp₂ hq₂ hs
    exact ⟨rfl, hs⟩

/-- `u32::try_from(len)`, the only way an encoder fails. -/
def writeLength (n : ℕ) : Except IoError Bytes :=
  if n < 2 ^ 32 then .ok (leBytes 4 n) else .error ⟨.invalidData, "invalid data"⟩

theorem writeLength_eq_ok {n : ℕ} {p : Bytes} :
    writeLength n = .ok p ↔ n < 2 ^ 32 ∧ p = leBytes 4 n := by
  unfold writeLength
  split <;> simp_all [eq_comm]

theorem u32_read_length {n : ℕ} (h : n < 2 ^ 32) (rest : Bytes) :
    u32.read (leBytes 4 n ++ rest) = .ok (UInt32.ofNat n, rest) := by
  apply lawful_u32.read_write trivial
  simp only [u32, uint, UInt32.toNat_ofNat_of_lt' h]

def vec (c : Codec α) : Codec (List α) where
  write xs := seq (writeLength xs.length) (writeMany c.write xs)
  read := do
    let n ← u32.read
    readMany c.read n.toNat

theorem Lawful.vec {c : Codec α} {fits valid plain : α → Prop} (h : c.Lawful fits valid plain) :
    (vec c).Lawful (fun xs => xs.length < 2 ^ 32 ∧ ∀ x ∈ xs, fits x)
      (fun xs => ∀ x ∈ xs, valid x) (fun xs => ∀ x ∈ xs, plain x) where
  fits_iff xs := by
    simp only [Codec.vec, seq_eq_ok, writeLength_eq_ok, fits_writeMany h]
    constructor
    · rintro ⟨hlen, q, hq⟩
      exact ⟨_, _, q, ⟨hlen, rfl⟩, hq, rfl⟩
    · rintro ⟨_, _, q, ⟨hlen, -⟩, hq, -⟩
      exact ⟨hlen, q, hq⟩
  read_write {xs _} hx hw rest := by
    obtain ⟨_, q, hl, hq, rfl⟩ := seq_eq_ok.mp hw
    obtain ⟨hlen, rfl⟩ := writeLength_eq_ok.mp hl
    rw [List.append_assoc]
    simp only [Codec.vec]
    rw [Reader.bind_of_ok (u32_read_length hlen (q ++ rest)), UInt32.toNat_ofNat_of_lt' hlen]
    exact readMany_writeMany h hx hq rest
  valid_of_read hr := by
    obtain ⟨n, mid, -, hr⟩ := Reader.bind_eq_ok.mp hr
    exact (readMany_spec h hr).2.1
  write_read {_ xs _} hr hp := by
    obtain ⟨n, mid, hn, hr⟩ := Reader.bind_eq_ok.mp hr
    obtain ⟨hlen, -, hplain⟩ := readMany_spec h hr
    obtain ⟨q, hq, rfl⟩ := hplain hp
    obtain ⟨l, hl, rfl⟩ := lawful_u32.write_read hn trivial
    refine ⟨l ++ q, seq_eq_ok.mpr ⟨l, q, writeLength_eq_ok.mpr ⟨?_, ?_⟩, hq, rfl⟩,
      (List.append_assoc ..).symm⟩
    · rw [hlen]
      exact UInt32.toNat_lt n
    · rw [hlen]
      simpa [u32, uint, eq_comm] using hl
  prefixFree {xs ys _ _ r s} hx hy hs := by
    obtain ⟨_, p, hl, hp, rfl⟩ := seq_eq_ok.mp hx
    obtain ⟨hlen, rfl⟩ := writeLength_eq_ok.mp hl
    obtain ⟨_, q, hl', hq, rfl⟩ := seq_eq_ok.mp hy
    obtain ⟨hlen', rfl⟩ := writeLength_eq_ok.mp hl'
    rw [List.append_assoc, List.append_assoc] at hs
    obtain ⟨hword, hs⟩ := List.append_inj hs (by simp)
    have hn : xs.length = ys.length := by
      rw [← leNat_leBytes (k := 4) hlen, hword, leNat_leBytes (k := 4) hlen']
    exact writeMany_prefixFree h.prefixFree hn hp hq hs

def bytes : Codec Bytes := vec u8

theorem lawful_bytes :
    bytes.Lawful (fun bs => bs.length < 2 ^ 32) (fun _ => True) (fun _ => True) :=
  lawful_u8.vec.congr (by simp) (by simp) (by simp)

def invalidOption (tag : UInt8) : IoError :=
  ⟨.invalidData,
    s!"Invalid Option representation: {tag.toNat}. The first byte must be 0 or 1"⟩

def option (c : Codec α) : Codec (Option α) where
  write
    | none => u8.write 0
    | some x => seq (u8.write 1) (c.write x)
  read := do
    let tag ← u8.read
    if tag = 0 then pure none
    else if tag = 1 then some <$> c.read
    else Reader.fail (invalidOption tag)

theorem Lawful.option {c : Codec α} {fits valid plain : α → Prop} (h : c.Lawful fits valid plain) :
    (option c).Lawful (fun o => ∀ x ∈ o, fits x) (fun o => ∀ x ∈ o, valid x)
      (fun o => ∀ x ∈ o, plain x) where
  fits_iff o := by
    cases o with
    | none => simp [Codec.option, u8_write]
    | some x => simp [Codec.option, u8_write, seq_eq_ok, h.fits_iff]
  read_write {o p} hx hw rest := by
    cases o with
    | none =>
      cases (u8_write 0).symm.trans hw
      exact Reader.bind_of_ok (u8_read_cons 0 rest)
    | some x =>
      obtain ⟨q, r, hq, hr, rfl⟩ := seq_eq_ok.mp hw
      cases (u8_write 1).symm.trans hq
      have hread := h.read_write (hx x rfl) hr rest
      exact (Reader.bind_of_ok (u8_read_cons 1 (r ++ rest))).trans (Reader.map_of_ok hread)
  valid_of_read {bs o rest} hr := by
    obtain ⟨tag, mid, -, hr⟩ := Reader.bind_eq_ok.mp hr
    split at hr
    · cases hr
      simp
    · split at hr
      · obtain ⟨x, hx, rfl⟩ := Reader.map_eq_ok.mp hr
        simpa using h.valid_of_read hx
      · cases hr
  write_read {bs o rest} hr hp := by
    obtain ⟨tag, mid, htag, hr⟩ := Reader.bind_eq_ok.mp hr
    rw [u8_read_eq_ok.mp htag]
    split at hr
    · next h0 =>
      cases hr
      exact ⟨[0], u8_write 0, by rw [h0]; rfl⟩
    · split at hr
      · next h1 =>
        obtain ⟨x, hx, rfl⟩ := Reader.map_eq_ok.mp hr
        obtain ⟨q, hq, rfl⟩ := h.write_read hx (hp x rfl)
        exact ⟨1 :: q, seq_eq_ok.mpr ⟨[1], q, u8_write 1, hq, rfl⟩, by rw [h1]; rfl⟩
      · cases hr
  prefixFree {o o' p q r s} hp hq hs := by
    cases o with
    | none =>
      cases (u8_write 0).symm.trans hp
      cases o' with
      | none =>
        cases (u8_write 0).symm.trans hq
        exact ⟨rfl, (List.cons.inj hs).2⟩
      | some y =>
        obtain ⟨t, q, ht, -, rfl⟩ := seq_eq_ok.mp hq
        cases (u8_write 1).symm.trans ht
        cases hs
    | some x =>
      obtain ⟨t, p, ht, hx, rfl⟩ := seq_eq_ok.mp hp
      cases (u8_write 1).symm.trans ht
      cases o' with
      | none =>
        cases (u8_write 0).symm.trans hq
        cases hs
      | some y =>
        obtain ⟨t, q, ht, hy, rfl⟩ := seq_eq_ok.mp hq
        cases (u8_write 1).symm.trans ht
        exact (h.prefixFree hx hy (List.cons.inj hs).2).imp_left (congrArg some)

def utf8 (s : String) : Bytes := s.toByteArray.data.toList

def fromUtf8 (bs : Bytes) : Option String :=
  if h : (ByteArray.mk bs.toArray).IsValidUTF8 then some (.ofByteArray _ h) else none

theorem fromUtf8_eq_some {bs : Bytes} {s : String} : fromUtf8 bs = some s ↔ utf8 s = bs := by
  unfold fromUtf8 utf8
  constructor
  · intro h
    split at h
    · cases h
      rfl
    · cases h
  · rintro rfl
    obtain ⟨b, hb⟩ := s
    simp [hb]

theorem utf8_injective : Function.Injective utf8 := by
  intro s t h
  have hs : fromUtf8 (utf8 t) = some s := fromUtf8_eq_some.mpr h
  rw [fromUtf8_eq_some.mpr rfl] at hs
  exact (Option.some.inj hs).symm

theorem length_utf8 (s : String) : (utf8 s).length = s.utf8ByteSize := by
  simp [utf8]

/-- The standard library's message goes on to name the offending position. -/
def invalidUtf8 : IoError := ⟨.invalidData, "invalid utf-8 sequence"⟩

def string : Codec String := bytes.guarded fromUtf8 utf8 invalidUtf8

theorem lawful_string :
    string.Lawful (fun s => s.utf8ByteSize < 2 ^ 32) (fun _ => True) (fun _ => True) :=
  (lawful_bytes.guarded (q := fun _ => True) invalidUtf8 utf8_injective
    (fun _ _ => by simp [fromUtf8_eq_some])).congr
    (by simp [length_utf8]) (by simp) (by simp)

/-! ## Discriminants -/

/-- The encoding of an enum value: its discriminant, then the payload. -/
def tagged (tag : UInt8) (payload : Except IoError Bytes) : Except IoError Bytes :=
  seq (u8.write tag) payload

theorem tagged_eq_ok {tag : UInt8} {payload : Except IoError Bytes} {p : Bytes} :
    tagged tag payload = .ok p ↔ ∃ q, payload = .ok q ∧ p = tag :: q := by
  simp [tagged, seq_eq_ok, u8_write]

/-- A derived enum decoder: the discriminant chooses the decoder of the rest. -/
def readTagged (variant : UInt8 → Reader α) : Reader α := do
  let tag ← u8.read
  variant tag

theorem readTagged_cons (variant : UInt8 → Reader α) (tag : UInt8) (bs : Bytes) :
    readTagged variant (tag :: bs) = variant tag bs :=
  Reader.bind_of_ok (u8_read_cons tag bs)

theorem readTagged_eq_ok {variant : UInt8 → Reader α} {bs rest : Bytes} {x : α} :
    readTagged variant bs = .ok (x, rest) ↔
      ∃ tag mid, bs = tag :: mid ∧ variant tag mid = .ok (x, rest) := by
  simp only [readTagged, Reader.bind_eq_ok, u8_read_eq_ok]

end Codec
end NearKit.Borsh
