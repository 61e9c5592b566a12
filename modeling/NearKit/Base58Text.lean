import NearKit.BorshReader
import Mathlib.Data.List.GetD
import Mathlib.Data.List.TakeWhile
import Mathlib.Data.Nat.Digits.Lemmas

/-!
# Base58 text

The bytes are a number in base 256, the symbols the same number in base 58, and leading
zero bytes are leading ones. Both directions change the base of a list of digits, most
significant first, and keep the number of its leading zeros.
-/
namespace NearKit

/-! ## A change of base -/

namespace Digits

def leadingZeros (ds : List ℕ) : ℕ := (ds.takeWhile (· == 0)).length

/-- The number of which these are the digits, most significant first. -/
def number (b : ℕ) (ds : List ℕ) : ℕ := Nat.ofDigits b ds.reverse

/-- The digits in base `c` of a number given in base `b`. -/
def recode (b c : ℕ) (ds : List ℕ) : List ℕ :=
  List.replicate (leadingZeros ds) 0 ++ (Nat.digits c (number b ds)).reverse

/-- The list does not start with a zero. -/
def Normal (ds : List ℕ) : Prop := ∀ d ∈ ds.head?, d ≠ 0

/-- Every list of digits is its zeros and a normal rest. -/
theorem exists_normal (ds : List ℕ) :
    ∃ rest, Normal rest ∧ ds = List.replicate (leadingZeros ds) 0 ++ rest := by
  refine ⟨ds.dropWhile (· == 0), ?_, ?_⟩
  · intro d hd
    have h := List.head?_dropWhile_not (· == 0) ds
    rw [Option.mem_def.mp hd] at h
    simpa using h
  · have hzeros : ds.takeWhile (· == 0) = List.replicate (leadingZeros ds) 0 := by
      apply List.eq_replicate_iff.mpr
      refine ⟨rfl, fun d hd => ?_⟩
      simpa using List.mem_takeWhile_imp hd
    rw [← hzeros, List.takeWhile_append_dropWhile]

theorem leadingZeros_append {rest : List ℕ} (h : Normal rest) (n : ℕ) :
    leadingZeros (List.replicate n 0 ++ rest) = n := by
  unfold leadingZeros
  induction n with
  | zero =>
    cases rest with
    | nil => rfl
    | cons d rest =>
      have hd : d ≠ 0 := h d rfl
      simp [hd]
  | succ n ih => simpa [List.replicate_succ] using ih

theorem number_append (b n : ℕ) (rest : List ℕ) :
    number b (List.replicate n 0 ++ rest) = number b rest := by
  unfold number
  rw [List.reverse_append, List.reverse_replicate, Nat.ofDigits_append_replicate_zero]

theorem normal_digits (c n : ℕ) : Normal (Nat.digits c n).reverse := by
  intro d hd
  rw [List.head?_reverse, Option.mem_def] at hd
  have hne : Nat.digits c n ≠ [] := by
    intro hnil
    rw [hnil] at hd
    cases hd
  rw [List.getLast?_eq_some_getLast hne] at hd
  cases hd
  exact Nat.getLast_digit_ne_zero c (Nat.digits_ne_nil_iff_ne_zero.mp hne)

theorem leadingZeros_recode (b c : ℕ) (ds : List ℕ) :
    leadingZeros (recode b c ds) = leadingZeros ds :=
  leadingZeros_append (normal_digits c _) _

theorem number_recode (b c : ℕ) (ds : List ℕ) : number c (recode b c ds) = number b ds := by
  unfold recode
  rw [number_append]
  unfold number
  rw [List.reverse_reverse, Nat.ofDigits_digits]

theorem recode_lt {b c : ℕ} (hc : 1 < c) {ds : List ℕ} : ∀ d ∈ recode b c ds, d < c := by
  intro d hd
  rcases List.mem_append.mp hd with hd | hd
  · rw [List.eq_of_mem_replicate hd]
    exact Nat.lt_trans Nat.zero_lt_one hc
  · exact Nat.digits_lt_base hc (List.mem_reverse.mp hd)

/-- A normal list is the digits of its number. -/
theorem digits_number {b : ℕ} (hb : 1 < b) {rest : List ℕ} (hrest : ∀ d ∈ rest, d < b)
    (h : Normal rest) : (Nat.digits b (number b rest)).reverse = rest := by
  unfold number
  rw [Nat.digits_ofDigits b hb, List.reverse_reverse]
  · exact fun d hd => hrest d (List.mem_reverse.mp hd)
  · intro hne
    apply h
    rw [List.getLast_reverse]
    exact List.head?_eq_some_head _

theorem recode_recode {b : ℕ} (c : ℕ) (hb : 1 < b) {ds : List ℕ} (hds : ∀ d ∈ ds, d < b) :
    recode c b (recode b c ds) = ds := by
  obtain ⟨rest, hnormal, heq⟩ := exists_normal ds
  have hrest : ∀ d ∈ rest, d < b := by
    intro d hd
    apply hds
    rw [heq]
    exact List.mem_append_right _ hd
  have hnumber : number b ds = number b rest := by rw [heq, number_append]
  calc recode c b (recode b c ds)
      = List.replicate (leadingZeros ds) 0 ++ (Nat.digits b (number b rest)).reverse := by
        rw [recode, leadingZeros_recode, number_recode, hnumber]
    _ = ds := by rw [digits_number hb hrest hnormal, ← heq]

theorem mapM_map {value : Char → Option ℕ} {symbol : ℕ → Char} {ds : List ℕ}
    (h : ∀ d ∈ ds, value (symbol d) = some d) : (ds.map symbol).mapM value = some ds := by
  induction ds with
  | nil => rfl
  | cons d ds ih =>
    obtain ⟨hd, hds⟩ := List.forall_mem_cons.mp h
    rw [List.map_cons, List.mapM_cons, hd, ih hds]
    rfl

end Digits

/-! ## Symbols -/

namespace Base58
open Borsh

def alphabet : List Char := "123456789ABCDEFGHJKLMNPQRSTUVWXYZabcdefghijkmnopqrstuvwxyz".toList

def symbol (n : ℕ) : Char := alphabet.getD n '1'

def value (c : Char) : Option ℕ := alphabet.idxOf? c

theorem value_symbol {n : ℕ} (h : n < 58) : value (symbol n) = some n := by
  have hall : ∀ n : Fin 58, value (symbol n) = some n.val := by decide
  exact hall ⟨n, h⟩

theorem symbol_of_value {c : Char} {n : ℕ} (h : value c = some n) : n < 58 ∧ symbol n = c := by
  obtain ⟨hn, hc, -⟩ := List.idxOf?_eq_some_iff.mp h
  refine ⟨hn, ?_⟩
  unfold symbol
  rw [List.getD_eq_getElem _ _ hn]
  exact hc

/-- A list of symbols, if it is one. -/
def values (cs : List Char) : Option (List ℕ) := cs.mapM value

theorem values_symbols {ds : List ℕ} (h : ∀ d ∈ ds, d < 58) : values (ds.map symbol) = some ds :=
  Digits.mapM_map fun d hd => value_symbol (h d hd)

theorem symbols_of_values {cs : List Char} {ds : List ℕ} (h : values cs = some ds) :
    (∀ d ∈ ds, d < 58) ∧ ds.map symbol = cs := by
  unfold values at h
  induction cs generalizing ds with
  | nil =>
    cases h
    exact ⟨nofun, rfl⟩
  | cons c cs ih =>
    rw [List.mapM_cons] at h
    obtain ⟨d, hd, h⟩ := Option.bind_eq_some_iff.mp h
    obtain ⟨ds, hds, h⟩ := Option.bind_eq_some_iff.mp h
    cases h
    obtain ⟨hlt, hsymbol⟩ := symbol_of_value hd
    obtain ⟨hall, hmap⟩ := ih hds
    exact ⟨List.forall_mem_cons.mpr ⟨hlt, hall⟩, by rw [List.map_cons, hsymbol, hmap]⟩

/-! ## Texts -/

def bytesToDigits (bs : Bytes) : List ℕ := bs.map UInt8.toNat

def digitsToBytes (ds : List ℕ) : Bytes := ds.map UInt8.ofNat

theorem bytesToDigits_lt (bs : Bytes) : ∀ d ∈ bytesToDigits bs, d < 256 := by
  intro d hd
  obtain ⟨b, -, rfl⟩ := List.mem_map.mp hd
  exact b.toNat_lt

theorem digitsToBytes_bytesToDigits (bs : Bytes) : digitsToBytes (bytesToDigits bs) = bs := by
  unfold digitsToBytes bytesToDigits
  rw [List.map_map]
  exact List.map_id'' (fun b => UInt8.ofNat_toNat) bs

theorem bytesToDigits_digitsToBytes {ds : List ℕ} (h : ∀ d ∈ ds, d < 256) :
    bytesToDigits (digitsToBytes ds) = ds := by
  unfold digitsToBytes bytesToDigits
  rw [List.map_map]
  refine (List.map_congr_left fun d hd => ?_).trans (List.map_id _)
  exact UInt8.toNat_ofNat_of_lt' (h d hd)

def encode (bs : Bytes) : String :=
  String.ofList ((Digits.recode 256 58 (bytesToDigits bs)).map symbol)

def decode (s : String) : Option Bytes :=
  (values s.toList).map fun ds => digitsToBytes (Digits.recode 58 256 ds)

theorem decode_encode (bs : Bytes) : decode (encode bs) = some bs := by
  unfold decode encode
  rw [String.toList_ofList, values_symbols (Digits.recode_lt (by norm_num)), Option.map_some,
    Digits.recode_recode 58 (by norm_num) (bytesToDigits_lt bs), digitsToBytes_bytesToDigits]

/-- The decoder accepts exactly the encoder's texts. -/
theorem decode_eq_some {s : String} {bs : Bytes} : decode s = some bs ↔ encode bs = s := by
  constructor
  · intro h
    obtain ⟨ds, hds, rfl⟩ := Option.map_eq_some_iff.mp h
    obtain ⟨hlt, hsymbols⟩ := symbols_of_values hds
    unfold encode
    rw [bytesToDigits_digitsToBytes (Digits.recode_lt (by norm_num)),
      Digits.recode_recode 256 (by norm_num) hlt, hsymbols, String.ofList_toList]
  · rintro rfl
    exact decode_encode bs

theorem encode_injective : Function.Injective encode := by
  intro bs bs' h
  have hdecode := decode_encode bs
  rw [h, decode_encode] at hdecode
  exact (Option.some.inj hdecode).symm

end Base58
end NearKit
