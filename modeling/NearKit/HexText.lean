import NearKit.BorshReader

/-!
# Hexadecimal text

Two digits a byte, written in lower case and read in either.
-/
namespace NearKit.Hex
open Borsh

def symbol (n : ℕ) : Char := if n < 10 then Char.ofNat (48 + n) else Char.ofNat (87 + n)

def value (c : Char) : Option ℕ :=
  let n := c.toNat
  if 48 ≤ n ∧ n ≤ 57 then some (n - 48)
  else if 97 ≤ n ∧ n ≤ 102 then some (n - 87)
  else if 65 ≤ n ∧ n ≤ 70 then some (n - 55)
  else none

theorem value_symbol {n : ℕ} (h : n < 16) : value (symbol n) = some n := by
  have hall : ∀ n : Fin 16, value (symbol n) = some n.val := by decide
  exact hall ⟨n, h⟩

def encodeChars : Bytes → List Char
  | [] => []
  | b :: bs => symbol (b.toNat / 16) :: symbol (b.toNat % 16) :: encodeChars bs

def decodeChars : List Char → Option Bytes
  | [] => some []
  | [_] => none
  | a :: b :: rest => do
    let x ← value a
    let y ← value b
    let bs ← decodeChars rest
    some (UInt8.ofNat (16 * x + y) :: bs)

def encode (bs : Bytes) : String := String.ofList (encodeChars bs)

def decode (s : String) : Option Bytes := decodeChars s.toList

theorem decodeChars_encodeChars (bs : Bytes) : decodeChars (encodeChars bs) = some bs := by
  induction bs with
  | nil => rfl
  | cons b bs ih =>
    have hb := b.toNat_lt
    have hhigh : value (symbol (b.toNat / 16)) = some (b.toNat / 16) := value_symbol (by omega)
    have hlow : value (symbol (b.toNat % 16)) = some (b.toNat % 16) := value_symbol (by omega)
    have hnumber : 16 * (b.toNat / 16) + b.toNat % 16 = b.toNat := Nat.div_add_mod _ _
    rw [encodeChars, decodeChars, hhigh, hlow, ih]
    simp only [Option.bind_eq_bind, Option.bind_some]
    rw [hnumber, UInt8.ofNat_toNat]

theorem decode_encode (bs : Bytes) : decode (encode bs) = some bs := by
  rw [decode, encode, String.toList_ofList, decodeChars_encodeChars]

end NearKit.Hex
