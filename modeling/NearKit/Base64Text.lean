import NearKit.BorshReader

/-!
# Base64 text

The standard alphabet with canonical padding. The decoder demands the padding and
zero trailing bits, so it accepts exactly the encoder's texts.
-/
namespace NearKit.Base64
open Borsh

def symbol (n : ℕ) : Char :=
  if n < 26 then Char.ofNat (65 + n)
  else if n < 52 then Char.ofNat (71 + n)
  else if n < 62 then Char.ofNat (n - 4)
  else if n = 62 then '+' else '/'

def value (c : Char) : Option ℕ :=
  let n := c.toNat
  if 65 ≤ n ∧ n ≤ 90 then some (n - 65)
  else if 97 ≤ n ∧ n ≤ 122 then some (n - 71)
  else if 48 ≤ n ∧ n ≤ 57 then some (n + 4)
  else if n = 43 then some 62
  else if n = 47 then some 63
  else none

theorem value_symbol {n : ℕ} (h : n < 64) : value (symbol n) = some n := by
  have hall : ∀ n : Fin 64, value (symbol n) = some n.val := by decide
  exact hall ⟨n, h⟩

theorem value_pad : value '=' = none := rfl

theorem symbol_of_value {c : Char} {n : ℕ} (h : value c = some n) : n < 64 ∧ symbol n = c := by
  have hc : Char.ofNat c.toNat = c := Char.ofNat_toNat c
  unfold value at h
  generalize c.toNat = k at h hc
  subst hc
  simp only at h
  split at h
  · next hk =>
    obtain ⟨m, rfl⟩ := Nat.exists_eq_add_of_le hk.1
    cases h
    refine ⟨by omega, ?_⟩
    rw [symbol, if_pos (by omega)]
    congr 1
    omega
  · split at h
    · next hk =>
      cases h
      refine ⟨by omega, ?_⟩
      rw [symbol, if_neg (by omega), if_pos (by omega)]
      congr 1
      omega
    · split at h
      · next hk =>
        cases h
        refine ⟨by omega, ?_⟩
        rw [symbol, if_neg (by omega), if_neg (by omega), if_pos (by omega)]
        congr 1
      · split at h
        · next hk =>
          cases h
          subst hk
          exact ⟨by omega, rfl⟩
        · split at h
          · next hk =>
            cases h
            subst hk
            exact ⟨by omega, rfl⟩
          · cases h

/-- The sextets of up to three bytes. -/
def encodeChars : Bytes → List Char
  | [] => []
  | [a] => [symbol (a.toNat / 4), symbol (a.toNat % 4 * 16), '=', '=']
  | [a, b] => [symbol (a.toNat / 4), symbol (a.toNat % 4 * 16 + b.toNat / 16),
      symbol (b.toNat % 16 * 4), '=']
  | a :: b :: c :: rest => symbol (a.toNat / 4) :: symbol (a.toNat % 4 * 16 + b.toNat / 16) ::
      symbol (b.toNat % 16 * 4 + c.toNat / 64) :: symbol (c.toNat % 64) :: encodeChars rest

/-- The one byte of a text that ends in two pads. -/
def decodeOne (a b : Char) : Option Bytes := do
  let x ← value a
  let y ← value b
  if y % 16 = 0 then some [UInt8.ofNat (x * 4 + y / 16)] else none

/-- The two bytes of a text that ends in one pad. -/
def decodeTwo (a b c : Char) : Option Bytes := do
  let x ← value a
  let y ← value b
  let z ← value c
  if z % 4 = 0 then
    some [UInt8.ofNat (x * 4 + y / 16), UInt8.ofNat (y % 16 * 16 + z / 4)]
  else none

def decodeThree (a b c d : Char) : Option Bytes := do
  let x ← value a
  let y ← value b
  let z ← value c
  let w ← value d
  some [UInt8.ofNat (x * 4 + y / 16), UInt8.ofNat (y % 16 * 16 + z / 4),
    UInt8.ofNat (z % 4 * 64 + w)]

def decodeChars : List Char → Option Bytes
  | [] => some []
  | a :: b :: c :: d :: rest =>
    if rest = [] ∧ d = '=' then
      if c = '=' then decodeOne a b else decodeTwo a b c
    else do
      let bs ← decodeThree a b c d
      let bs' ← decodeChars rest
      some (bs ++ bs')
  | _ => none

def encode (bs : Bytes) : String := String.ofList (encodeChars bs)

def decode (s : String) : Option Bytes := decodeChars s.toList

private theorem symbol_ne_pad {n : ℕ} (h : n < 64) : symbol n ≠ '=' := by
  intro he
  have hv := value_symbol h
  rw [he, value_pad] at hv
  cases hv

private theorem ofNat_eq {n : ℕ} {b : UInt8} (h : n = b.toNat) : UInt8.ofNat n = b := by
  rw [h, UInt8.ofNat_toNat]

theorem decodeChars_encodeChars (bs : Bytes) : decodeChars (encodeChars bs) = some bs := by
  fun_induction encodeChars bs with
  | case1 => rfl
  | case2 a =>
    have ha := UInt8.toNat_lt a
    have h₁ : a.toNat % 4 * 16 % 16 = 0 := by omega
    simp only [decodeChars, and_self, if_true, decodeOne, value_symbol (n := a.toNat / 4) (by omega),
      value_symbol (n := a.toNat % 4 * 16) (by omega), Option.bind_eq_bind, Option.bind_some, h₁]
    rw [ofNat_eq (b := a) (by omega)]
  | case3 a b =>
    have ha := UInt8.toNat_lt a
    have hb := UInt8.toNat_lt b
    have h₁ : b.toNat % 16 * 4 % 4 = 0 := by omega
    have hpad := symbol_ne_pad (n := b.toNat % 16 * 4) (by omega)
    simp only [decodeChars, and_self, if_true, if_neg hpad, decodeTwo,
      value_symbol (n := a.toNat / 4) (by omega),
      value_symbol (n := a.toNat % 4 * 16 + b.toNat / 16) (by omega),
      value_symbol (n := b.toNat % 16 * 4) (by omega), Option.bind_eq_bind, Option.bind_some, h₁]
    rw [ofNat_eq (b := a) (by omega), ofNat_eq (b := b) (by omega)]
  | case4 a b c rest ih =>
    have ha := UInt8.toNat_lt a
    have hb := UInt8.toNat_lt b
    have hc := UInt8.toNat_lt c
    have hpad := symbol_ne_pad (n := c.toNat % 64) (by omega)
    simp only [decodeChars, hpad, and_false, if_false, decodeThree, ih,
      value_symbol (n := a.toNat / 4) (by omega),
      value_symbol (n := a.toNat % 4 * 16 + b.toNat / 16) (by omega),
      value_symbol (n := b.toNat % 16 * 4 + c.toNat / 64) (by omega),
      value_symbol (n := c.toNat % 64) (by omega), Option.bind_eq_bind, Option.bind_some]
    rw [ofNat_eq (b := a) (by omega), ofNat_eq (b := b) (by omega), ofNat_eq (b := c) (by omega)]
    rfl

theorem decode_encode (bs : Bytes) : decode (encode bs) = some bs := by
  rw [decode, encode, String.toList_ofList, decodeChars_encodeChars]

theorem encode_injective : Function.Injective encode := by
  intro bs cs h
  have hdecode := congrArg decode h
  rw [decode_encode, decode_encode] at hdecode
  exact Option.some.inj hdecode

private theorem toNat_byte {n : ℕ} (h : n < 256) : (UInt8.ofNat n).toNat = n :=
  UInt8.toNat_ofNat_of_lt' h

private theorem encodeChars_of_decodeOne {a b : Char} {bs : Bytes} (h : decodeOne a b = some bs) :
    encodeChars bs = [a, b, '=', '='] := by
  simp only [decodeOne, Option.bind_eq_bind, Option.bind_eq_some_iff] at h
  obtain ⟨x, hx, y, hy, h⟩ := h
  split at h
  · next hbits =>
    cases h
    obtain ⟨hx, rfl⟩ := symbol_of_value hx
    obtain ⟨hy, rfl⟩ := symbol_of_value hy
    have h₁ : (x * 4 + y / 16) / 4 = x := by omega
    have h₂ : (x * 4 + y / 16) % 4 * 16 = y := by omega
    rw [encodeChars, toNat_byte (by omega), h₁, h₂]
  · cases h

private theorem encodeChars_of_decodeTwo {a b c : Char} {bs : Bytes}
    (h : decodeTwo a b c = some bs) : encodeChars bs = [a, b, c, '='] := by
  simp only [decodeTwo, Option.bind_eq_bind, Option.bind_eq_some_iff] at h
  obtain ⟨x, hx, y, hy, z, hz, h⟩ := h
  split at h
  · next hbits =>
    cases h
    obtain ⟨hx, rfl⟩ := symbol_of_value hx
    obtain ⟨hy, rfl⟩ := symbol_of_value hy
    obtain ⟨hz, rfl⟩ := symbol_of_value hz
    have h₁ : (x * 4 + y / 16) / 4 = x := by omega
    have h₂ : (x * 4 + y / 16) % 4 * 16 + (y % 16 * 16 + z / 4) / 16 = y := by omega
    have h₃ : (y % 16 * 16 + z / 4) % 16 * 4 = z := by omega
    rw [encodeChars, toNat_byte (by omega), toNat_byte (by omega), h₁, h₂, h₃]
  · cases h

private theorem encodeChars_of_decodeThree {a b c d : Char} {bs rest : Bytes}
    (h : decodeThree a b c d = some bs) :
    encodeChars (bs ++ rest) = a :: b :: c :: d :: encodeChars rest := by
  simp only [decodeThree, Option.bind_eq_bind, Option.bind_eq_some_iff] at h
  obtain ⟨x, hx, y, hy, z, hz, w, hw, h⟩ := h
  cases h
  obtain ⟨hx, rfl⟩ := symbol_of_value hx
  obtain ⟨hy, rfl⟩ := symbol_of_value hy
  obtain ⟨hz, rfl⟩ := symbol_of_value hz
  obtain ⟨hw, rfl⟩ := symbol_of_value hw
  have h₁ : (x * 4 + y / 16) / 4 = x := by omega
  have h₂ : (x * 4 + y / 16) % 4 * 16 + (y % 16 * 16 + z / 4) / 16 = y := by omega
  have h₃ : (y % 16 * 16 + z / 4) % 16 * 4 + (z % 4 * 64 + w) / 64 = z := by omega
  have h₄ : (z % 4 * 64 + w) % 64 = w := by omega
  simp only [List.cons_append, List.nil_append, encodeChars]
  rw [toNat_byte (by omega), toNat_byte (by omega), toNat_byte (by omega), h₁, h₂, h₃, h₄]

theorem encodeChars_of_decodeChars {cs : List Char} {bs : Bytes} (h : decodeChars cs = some bs) :
    encodeChars bs = cs := by
  fun_induction decodeChars cs generalizing bs with
  | case1 =>
    cases h
    rfl
  | case2 a b d rest hr =>
    obtain ⟨rfl, rfl⟩ := hr
    exact encodeChars_of_decodeOne h
  | case3 a b c d rest hr hc =>
    obtain ⟨rfl, rfl⟩ := hr
    exact encodeChars_of_decodeTwo h
  | case4 a b c d rest hr ih =>
    simp only [Option.bind_eq_bind, Option.bind_eq_some_iff] at h
    obtain ⟨bs₁, h₁, bs₂, h₂, h⟩ := h
    cases h
    rw [encodeChars_of_decodeThree h₁, ih h₂]
  | case5 => cases h

theorem decode_eq_some {s : String} {bs : Bytes} : decode s = some bs ↔ encode bs = s := by
  constructor
  · intro h
    rw [encode, encodeChars_of_decodeChars h, String.ofList_toList]
  · rintro rfl
    exact decode_encode bs

end NearKit.Base64
