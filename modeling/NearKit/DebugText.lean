import NearKit.Base58Text
import NearKit.HexText

/-!
# Scanning text, and Rust's `Debug` text

The string functions that a scanner calls, on lists of characters, and what `Debug` writes
for a string and for a value whose implementation is derived.
-/
namespace NearKit

namespace Text

/-- The Unicode property `White_Space`. -/
def isWhitespace (c : Char) : Bool :=
  let n := c.toNat
  (9 ≤ n && n ≤ 13) || n == 0x20 || n == 0x85 || n == 0xA0 || n == 0x1680 ||
    (0x2000 ≤ n && n ≤ 0x200A) || n == 0x2028 || n == 0x2029 || n == 0x202F || n == 0x205F ||
    n == 0x3000

def trimStart (cs : List Char) : List Char := cs.dropWhile isWhitespace

def trimEnd (cs : List Char) : List Char := (cs.reverse.dropWhile isWhitespace).reverse

def trim (cs : List Char) : List Char := trimEnd (trimStart cs)

def trimEndMatches (c : Char) (cs : List Char) : List Char := (cs.reverse.dropWhile (· == c)).reverse

def stripPrefix : List Char → List Char → Option (List Char)
  | [], cs => some cs
  | _ :: _, [] => none
  | p :: ps, c :: cs => if p = c then stripPrefix ps cs else none

/-- `str::split_once` at a string, of which only what follows is wanted. -/
def afterOnce (pattern : List Char) : List Char → Option (List Char)
  | [] => stripPrefix pattern []
  | c :: cs =>
    match stripPrefix pattern (c :: cs) with
    | some rest => some rest
    | none => afterOnce pattern cs

/-- The rest from the first occurrence of a character. -/
def fromFirst (c : Char) (cs : List Char) : Option (List Char) :=
  match cs.dropWhile (· != c) with
  | [] => none
  | rest => some rest

/-- The text before and after an index into its UTF-8 bytes, `none` inside a character. -/
def splitAtByte : ℕ → List Char → Option (List Char × List Char)
  | 0, cs => some ([], cs)
  | _ + 1, [] => none
  | n + 1, c :: cs =>
    if c.utf8Size ≤ n + 1 then (splitAtByte (n + 1 - c.utf8Size) cs).map (Prod.map (c :: ·) id)
    else none

def eqIgnoreAsciiCase (cs ds : List Char) : Bool := cs.map Char.toLower == ds.map Char.toLower

theorem stripPrefix_append (ps cs : List Char) : stripPrefix ps (ps ++ cs) = some cs := by
  induction ps with
  | nil => rfl
  | cons p ps ih => exact (if_pos rfl).trans ih

theorem trimStart_cons {c : Char} (h : isWhitespace c = false) (cs : List Char) :
    trimStart (c :: cs) = c :: cs :=
  List.dropWhile_cons_of_neg (by simp [h])

theorem trimEnd_append {c : Char} (h : isWhitespace c = false) (cs : List Char) :
    trimEnd (cs ++ [c]) = cs ++ [c] := by
  unfold trimEnd
  rw [List.reverse_append, List.reverse_singleton, List.singleton_append,
    List.dropWhile_cons_of_neg (by simp [h]), List.reverse_cons, List.reverse_reverse]

end Text

/-! ## What `Debug` writes -/

namespace Debug

def quote : Char := Char.ofNat 0x22

def backslash : Char := Char.ofNat 0x5C

def newline : Char := Char.ofNat 0x0A

def carriageReturn : Char := Char.ofNat 0x0D

def tab : Char := Char.ofNat 0x09

def null : Char := Char.ofNat 0

/-- The digits between the braces of `\u{…}`. -/
def hexDigits (c : Char) : List Char := (Nat.digits 16 c.toNat).reverse.map Hex.symbol

/-- The escapes of a `str`: five by name, those of a further set by their number. -/
def escapeChar (byNumber : Char → Bool) (c : Char) : List Char :=
  if c = quote then [backslash, quote]
  else if c = backslash then [backslash, backslash]
  else if c = newline then [backslash, 'n']
  else if c = carriageReturn then [backslash, 'r']
  else if c = tab then [backslash, 't']
  else if c = null then [backslash, '0']
  else if byNumber c then backslash :: 'u' :: '{' :: hexDigits c ++ ['}']
  else [c]

def escape (byNumber : Char → Bool) (cs : List Char) : List Char := cs.flatMap (escapeChar byNumber)

def str (byNumber : Char → Bool) (s : String) : List Char :=
  quote :: escape byNumber s.toList ++ [quote]

def u64 (n : UInt64) : List Char := n.toNat.repr.toList

/-- A variant without fields. -/
def unit (name : String) : List Char := name.toList

def tuple (name : String) (field : List Char) : List Char := name.toList ++ '(' :: field ++ [')']

def fields : List (String × List Char) → List Char
  | [] => []
  | [(name, value)] => name.toList ++ ':' :: ' ' :: value
  | (name, value) :: rest => name.toList ++ ':' :: ' ' :: value ++ ',' :: ' ' :: fields rest

def struct (name : String) (fs : List (String × List Char)) : List Char :=
  name.toList ++ ' ' :: '{' :: ' ' :: fields fs ++ [' ', '}']

theorem tuple_struct (outer inner field : String) (value : List Char) :
    tuple outer (struct inner [(field, value)]) =
      outer.toList ++ '(' :: (inner.toList ++ ' ' :: '{' :: ' ' ::
        (field.toList ++ ':' :: ' ' :: (value ++ [' ', '}', ')']))) := by
  simp [tuple, struct, fields]

end Debug
end NearKit
