import NearKit.BorshPrimitives
import NearKit.TextShapes

/-!
# Percent-encoding

A byte may be written as a percent sign and two hexadecimal digits. Decoding takes every such
escape for its byte and leaves every other byte as it is, a percent sign without two digits
behind it among them.
-/
namespace NearKit.Percent
open Borsh

def sign : UInt8 := 0x25

def hexVal (b : UInt8) : Option UInt8 :=
  if 0x30 ≤ b ∧ b ≤ 0x39 then some (b - 0x30)
  else if 0x61 ≤ b ∧ b ≤ 0x66 then some (b - 0x61 + 10)
  else if 0x41 ≤ b ∧ b ≤ 0x46 then some (b - 0x41 + 10)
  else none

/-- The byte of two digits. -/
def pair (h l : UInt8) : Option UInt8 :=
  match hexVal h, hexVal l with
  | some hi, some lo => some (hi <<< 4 ||| lo)
  | _, _ => none

def decode : Bytes → Bytes
  | p :: h :: l :: rest =>
    match if p = sign then pair h l else none with
    | some b => b :: decode rest
    | none => p :: decode (h :: l :: rest)
  | bs => bs

/-- Two digits do not begin the text. -/
def Malformed (rest : Bytes) : Prop := ∀ h l tail, rest = h :: l :: tail → pair h l = none

theorem pair_sign_left (l : UInt8) : pair sign l = none := rfl

theorem pair_sign_right (h : UInt8) : pair h sign = none := by
  unfold pair
  cases hexVal h <;> rfl

theorem pair_eq_some {h l hi lo : UInt8} (hhi : hexVal h = some hi) (hlo : hexVal l = some lo) :
    pair h l = some (hi <<< 4 ||| lo) := by
  unfold pair
  rw [hhi, hlo]

theorem pair_eq_none {h l : UInt8}
    (hno : ∀ hi lo, hexVal h = some hi → hexVal l = some lo → False) : pair h l = none := by
  unfold pair
  split
  · next hi lo hhi hlo => exact (hno hi lo hhi hlo).elim
  · rfl

theorem decode_cons_of_ne {b : UInt8} (h : b ≠ sign) (bs : Bytes) :
    decode (b :: bs) = b :: decode bs := by
  rcases bs with _ | ⟨c, _ | ⟨d, bs⟩⟩
  · rfl
  · rfl
  · rw [decode, if_neg h]

theorem decode_escape {h l b : UInt8} (hpair : pair h l = some b) (rest : Bytes) :
    decode (sign :: h :: l :: rest) = b :: decode rest := by
  rw [decode, if_pos rfl, hpair]

theorem decode_cons {b : UInt8} {bs : Bytes} (h : b = sign → Malformed bs) :
    decode (b :: bs) = b :: decode bs := by
  by_cases hb : b = sign
  · rcases bs with _ | ⟨c, _ | ⟨d, bs⟩⟩
    · rfl
    · rfl
    · rw [decode, if_pos hb, h hb c d bs rfl]
  · exact decode_cons_of_ne hb bs

theorem malformed_sign (rest : Bytes) : Malformed (sign :: rest) := by
  intro h l tail heq
  obtain ⟨hsign, -⟩ := List.cons.inj heq
  rw [← hsign]
  exact pair_sign_left l

theorem malformed_sign_second (c : UInt8) (rest : Bytes) : Malformed (c :: sign :: rest) := by
  intro h l tail heq
  obtain ⟨-, htail⟩ := List.cons.inj heq
  rw [← (List.cons.inj htail).1]
  exact pair_sign_right h

/-- No escape reaches over a percent sign. -/
theorem decode_append_sign (bs rest : Bytes) :
    decode (bs ++ sign :: rest) = decode bs ++ decode (sign :: rest) := by
  fun_induction decode bs with
  | case1 p h l tail b hpair ih =>
    have hp : p = sign := by
      by_contra hne
      rw [if_neg hne] at hpair
      cases hpair
    rw [if_pos hp] at hpair
    rw [hp, List.cons_append, List.cons_append, List.cons_append, decode_escape hpair, ih,
      List.cons_append]
  | case2 p h l tail hpair ih =>
    simp only [List.cons_append] at ih ⊢
    rw [decode, hpair, ih]
  | case3 bs hshort =>
    rcases bs with _ | ⟨c, _ | ⟨d, _ | ⟨e, bs⟩⟩⟩
    · rfl
    · exact decode_cons fun _ => malformed_sign rest
    · have hd : decode (d :: sign :: rest) = d :: decode (sign :: rest) :=
        decode_cons fun _ => malformed_sign rest
      exact (decode_cons fun _ => malformed_sign_second d rest).trans (congrArg (c :: ·) hd)
    · exact absurd rfl (hshort c d e bs)

theorem decode_of_malformed {bs : Bytes}
    (h : ∀ pre rest, bs = pre ++ sign :: rest → Malformed rest) : decode bs = bs := by
  induction bs with
  | nil => rfl
  | cons b bs ih =>
    have htail : decode bs = bs := by
      apply ih
      rintro pre rest rfl
      exact h (b :: pre) rest rfl
    have hb : b = sign → Malformed bs := by
      rintro rfl
      exact h [] bs rfl
    rw [decode_cons hb, htail]

/-! ## Encodings -/

/-- The second text is one of the encodings of the first: a byte stands for itself, unless it
is a percent sign, or is escaped in digits of either case. -/
inductive Encodes : Bytes → Bytes → Prop
  | nil : Encodes [] []
  | plain {b : UInt8} {bs es : Bytes} (h : b ≠ sign) (rest : Encodes bs es) :
      Encodes (b :: bs) (b :: es)
  | escaped {b h l : UInt8} {bs es : Bytes} (hpair : pair h l = some b) (rest : Encodes bs es) :
      Encodes (b :: bs) (sign :: h :: l :: es)

theorem decode_of_encodes {bs es : Bytes} (h : Encodes bs es) : decode es = bs := by
  induction h with
  | nil => rfl
  | plain hb rest ih => rw [decode_cons_of_ne hb, ih]
  | escaped hpair rest ih => rw [decode_escape hpair, ih]

def digit (n : ℕ) : Char := if n < 10 then Char.ofNat (48 + n) else Char.ofNat (55 + n)

/-- The encoding that keeps some of the ASCII characters and escapes all other bytes. -/
def encode (keep : UInt8 → Bool) : Bytes → List Char
  | [] => []
  | b :: bs =>
    if keep b ∧ b.toNat < 128 ∧ b ≠ sign then Char.ofNat b.toNat :: encode keep bs
    else '%' :: digit (b.toNat / 16) :: digit (b.toNat % 16) :: encode keep bs

theorem utf8_ofList_append (xs ys : List Char) :
    Codec.utf8 (String.ofList (xs ++ ys)) =
      Codec.utf8 (String.ofList xs) ++ Codec.utf8 (String.ofList ys) := by
  unfold Codec.utf8
  simp [String.toByteArray_ofList]

theorem utf8_ofList_cons {c : Char} (h : c.toNat < 128) (cs : List Char) :
    Codec.utf8 (String.ofList (c :: cs)) = UInt8.ofNat c.toNat :: Codec.utf8 (String.ofList cs) := by
  have hencode := String.utf8EncodeChar_eq_singleton (Text.utf8Size_of_ascii h)
  unfold Codec.utf8
  simp [String.toByteArray_ofList, List.utf8Encode, hencode]
  rfl

theorem hexVal_digit {n : ℕ} (h : n < 16) :
    hexVal (UInt8.ofNat (digit n).toNat) = some (UInt8.ofNat n) := by
  have hall : ∀ n : Fin 16, hexVal (UInt8.ofNat (digit n.val).toNat) = some (UInt8.ofNat n.val) := by
    decide
  exact hall ⟨n, h⟩

theorem pair_digits (b : UInt8) :
    pair (UInt8.ofNat (digit (b.toNat / 16)).toNat) (UInt8.ofNat (digit (b.toNat % 16)).toNat) =
      some b := by
  have hb := b.toNat_lt
  have hlow : b.toNat % 16 < 2 ^ 4 := Nat.mod_lt _ (by decide)
  have hbyte : UInt8.ofNat (b.toNat / 16) <<< 4 ||| UInt8.ofNat (b.toNat % 16) = b := by
    apply UInt8.toNat_inj.mp
    calc (UInt8.ofNat (b.toNat / 16) <<< 4 ||| UInt8.ofNat (b.toNat % 16)).toNat
        = (b.toNat / 16) <<< 4 ||| b.toNat % 16 := by
          have hhigh : b.toNat / 16 * 16 % 256 = b.toNat / 16 * 16 := Nat.mod_eq_of_lt (by omega)
          have hrest : b.toNat % 16 % 256 = b.toNat % 16 := Nat.mod_eq_of_lt (by omega)
          simp [Nat.shiftLeft_eq, hhigh, hrest]
      _ = (b.toNat / 16) <<< 4 + b.toNat % 16 := (Nat.shiftLeft_add_eq_or_of_lt hlow _).symm
      _ = b.toNat := by
          rw [Nat.shiftLeft_eq]
          omega
  rw [pair_eq_some (hexVal_digit (by omega)) (hexVal_digit (by omega)), hbyte]

theorem digit_ascii {n : ℕ} (h : n < 16) : (digit n).toNat < 128 := by
  have hall : ∀ n : Fin 16, (digit n.val).toNat < 128 := by decide
  exact hall ⟨n, h⟩

/-- Every byte string has encodings that are texts, and each is decoded to it. -/
theorem encodes_encode (keep : UInt8 → Bool) (bs : Bytes) :
    Encodes bs (Codec.utf8 (String.ofList (encode keep bs))) := by
  induction bs with
  | nil => exact .nil
  | cons b bs ih =>
    unfold encode
    split
    · next h =>
      obtain ⟨-, hascii, hsign⟩ := h
      have hchar : (Char.ofNat b.toNat).toNat = b.toNat :=
        congrArg Char.toNat (dif_pos (.inl (by omega)))
      rw [utf8_ofList_cons (by omega), hchar, UInt8.ofNat_toNat]
      exact .plain hsign ih
    · have hb := b.toNat_lt
      have hhigh : (digit (b.toNat / 16)).toNat < 128 := digit_ascii (by omega)
      have hlow : (digit (b.toNat % 16)).toNat < 128 := digit_ascii (by omega)
      rw [utf8_ofList_cons (by decide), utf8_ofList_cons hhigh, utf8_ofList_cons hlow]
      exact .escaped (pair_digits b) ih

end NearKit.Percent
