import CatalystAsm.Bytes

/-!
# Characters

A byte string is read as a sequence of characters in UTF-8. A byte that belongs to no well-formed
encoding stands for itself, so that the characters always concatenate to the text they were read
from. What is known of characters comes from tables of code points.
-/

namespace CatalystAsm.Utf8

/-- One character of a byte string: its code point, or none for a byte that fits no encoding. -/
structure Character where
  code : Option Nat
  bytes : Bytes
  deriving DecidableEq, Repr, Inhabited

/-- Whether `b` can follow the first byte of an encoding. -/
def isTail (b : UInt8) : Bool := 0x80 ≤ b && b ≤ 0xbf

/-- The six low bits of a following byte. -/
def tailBits (b : UInt8) : Nat := b.toNat % 64

/-- The first byte and the range of the second one of a three-byte encoding. -/
def threeByte (a b : UInt8) : Bool :=
  (a == 0xe0 && 0xa0 ≤ b && b ≤ 0xbf) || (0xe1 ≤ a && a ≤ 0xec && isTail b) ||
    (a == 0xed && 0x80 ≤ b && b ≤ 0x9f) || (0xee ≤ a && a ≤ 0xef && isTail b)

/-- The first byte and the range of the second one of a four-byte encoding. -/
def fourByte (a b : UInt8) : Bool :=
  (a == 0xf0 && 0x90 ≤ b && b ≤ 0xbf) || (0xf1 ≤ a && a ≤ 0xf3 && isTail b) ||
    (a == 0xf4 && 0x80 ≤ b && b ≤ 0x8f)

/-- The character that starts with byte `a`, and how many bytes of `rest` it takes as well. -/
def first (a : UInt8) (rest : Bytes) : Character × Nat :=
  let broken : Character × Nat := (⟨none, [a]⟩, 0)
  if a < 0x80 then (⟨some a.toNat, [a]⟩, 0)
  else match rest with
    | [] => broken
    | b :: rest =>
      if 0xc2 ≤ a && a ≤ 0xdf && isTail b then
        (⟨some (a.toNat % 32 * 64 + tailBits b), [a, b]⟩, 1)
      else match rest with
        | [] => broken
        | c :: rest =>
          if threeByte a b && isTail c then
            (⟨some (a.toNat % 16 * 4096 + tailBits b * 64 + tailBits c), [a, b, c]⟩, 2)
          else match rest with
            | [] => broken
            | d :: _ =>
              if fourByte a b && isTail c && isTail d then
                (⟨some (a.toNat % 8 * 262144 + tailBits b * 4096 + tailBits c * 64 + tailBits d),
                  [a, b, c, d]⟩, 3)
              else broken

/-- The characters of a byte string, in order. -/
def characters : Bytes → List Character
  | [] => []
  | a :: rest =>
    let (c, taken) := first a rest
    c :: characters (rest.drop taken)
termination_by b => b.length
decreasing_by simp only [List.length_drop, List.length_cons]; omega

/-- Whether every byte belongs to a well-formed encoding. -/
def isValid (b : Bytes) : Bool := (characters b).all (·.code.isSome)

/-- The encoding of a code point. -/
def encode (code : Nat) : Bytes :=
  if code < 0x80 then [UInt8.ofNat code]
  else if code < 0x800 then [UInt8.ofNat (0xc0 + code / 64), UInt8.ofNat (0x80 + code % 64)]
  else if code < 0x10000 then
    [UInt8.ofNat (0xe0 + code / 4096), UInt8.ofNat (0x80 + code / 64 % 64),
      UInt8.ofNat (0x80 + code % 64)]
  else
    [UInt8.ofNat (0xf0 + code / 262144), UInt8.ofNat (0x80 + code / 4096 % 64),
      UInt8.ofNat (0x80 + code / 64 % 64), UInt8.ofNat (0x80 + code % 64)]

/-- The code points of a byte string; a byte that fits no encoding counts as U+FFFD. -/
def codePoints (b : Bytes) : List Nat := (characters b).map fun c => c.code.getD 0xfffd

/-- The bytes of a sequence of characters. -/
def concat (cs : List Character) : Bytes := cs.flatMap (·.bytes)

end CatalystAsm.Utf8

namespace CatalystAsm.Text

/-! ## White space -/

/-- Whether a code point is white space. -/
def isBlank (code : Nat) : Bool :=
  (0x09 ≤ code && code ≤ 0x0d) || code == 0x20 || code == 0x85 || code == 0xa0 ||
    code == 0x1680 || (0x2000 ≤ code && code ≤ 0x200a) || code == 0x2028 || code == 0x2029 ||
    code == 0x202f || code == 0x205f || code == 0x3000

/-- Whether a character is white space; a byte that fits no encoding is not. -/
def isBlankCharacter (c : Utf8.Character) : Bool := c.code.any isBlank

/-- The text without the white space at both ends. -/
def trim (b : Bytes) : Bytes :=
  Utf8.concat (((Utf8.characters b).dropWhile isBlankCharacter).reverse.dropWhile
    isBlankCharacter).reverse

end CatalystAsm.Text

namespace CatalystAsm.Text.Table

/-! ## Tables

A table is a list of texts that hold rows separated by commas; a row is a list of hexadecimal
numbers separated by blanks.
-/

/-- The value of a hexadecimal digit. -/
def digit (c : Char) : Nat :=
  if '0' ≤ c ∧ c ≤ '9' then c.toNat - 48 else c.toNat - 87

/-- The number that hexadecimal digits spell. -/
def number (s : String) : Nat := s.foldl (fun n c => n * 16 + digit c) 0

/-- The rows of a table. -/
def rows (table : List String) : List (List Nat) :=
  table.flatMap fun text => (text.splitOn ",").map fun row => (row.splitOn " ").map number

/-- The rows of a table of ranges: first and last code point. -/
def ranges (table : List String) : Array (Nat × Nat) :=
  ((rows table).filterMap fun
    | [lo, hi] => some (lo, hi)
    | _ => none).toArray

/-- Whether `code` lies in one of the ranges `lo ≤ i < hi`, which are sorted and disjoint. -/
def search (ranges : Array (Nat × Nat)) (code : Nat) (lo hi : Nat) : Bool :=
  if _ : lo < hi then
    let mid := (lo + hi) / 2
    match ranges[mid]? with
    | none => false
    | some (first, last) =>
      if code < first then search ranges code lo mid
      else if last < code then search ranges code (mid + 1) hi
      else true
  else false
termination_by hi - lo

/-- Whether `code` lies in one of the sorted disjoint ranges. -/
def contains (ranges : Array (Nat × Nat)) (code : Nat) : Bool := search ranges code 0 ranges.size

end CatalystAsm.Text.Table
