/-!
# Byte strings

Everything the assembler reads and writes is a list of bytes: source lines, names, messages and
images. This file has the text form of strings and numbers, the little-endian form of numbers with
its reader, and the order of byte strings.

Main statements: `length_littleEndian` gives the width of an encoded number, and
`ofLittleEndian_littleEndian` reads it back modulo `256` to the power of `n`.
-/

namespace CatalystAsm

/-- A byte string. -/
abbrev Bytes := List UInt8

namespace Bytes

/-! ## Text -/

/-- The UTF-8 bytes of a string. -/
def ofString (s : String) : Bytes := s.toUTF8.data.toList

/-- The decimal digits of a number. -/
def ofNat (n : Nat) : Bytes := ofString (toString n)

/-- The decimal digits of an integer, with a minus sign below zero. -/
def ofInt (n : Int) : Bytes := ofString (toString n)

/-- The lower-case hexadecimal digits of a number, without leading zeros. -/
def hexOfNat (n : Nat) : Bytes := ofString (String.ofList (Nat.toDigits 16 n))

/-- The pieces one after another. -/
def concat (pieces : List Bytes) : Bytes := pieces.flatten

/-- The pieces with `separator` between any two neighbours. -/
def intercalate (separator : Bytes) : List Bytes → Bytes
  | [] => []
  | [piece] => piece
  | piece :: rest => piece ++ separator ++ intercalate separator rest

/-- The string of a valid UTF-8 byte string. -/
def toString? (b : Bytes) : Option String := String.fromUTF8? ⟨b.toArray⟩

/-- The byte of an ASCII character. -/
def char (c : Char) : UInt8 := UInt8.ofNat c.toNat

/-- The bytes, padded on the left with `fill` to at least `width`. -/
def padLeft (width : Nat) (fill : UInt8) (b : Bytes) : Bytes :=
  List.replicate (width - b.length) fill ++ b

/-- The bytes, padded on the right with `fill` to at least `width`. -/
def padRight (width : Nat) (fill : UInt8) (b : Bytes) : Bytes :=
  b ++ List.replicate (width - b.length) fill

/-- Whether every byte is below 128. -/
def isAscii (b : Bytes) : Bool := b.all (· < 0x80)

/-- The rest after `start`, when `b` begins with it. -/
def dropStart? (start b : Bytes) : Option Bytes :=
  if start.isPrefixOf b then some (b.drop start.length) else none

/-- The rest before `ending`, when `b` ends with it. -/
def dropEnd? (ending b : Bytes) : Option Bytes :=
  if ending.isSuffixOf b then some (b.take (b.length - ending.length)) else none

/-! ## Order -/

/-- Whether `a` comes strictly before `b` byte by byte; a proper start of `b` comes before it. -/
def before (a b : Bytes) : Bool := List.lex a b (· < ·)

/-- Whether `a` does not come after `b`. -/
def atMost (a b : Bytes) : Bool := !before b a

/-- The order of two byte strings. -/
def order (a b : Bytes) : Ordering :=
  if before a b then .lt else if before b a then .gt else .eq

/-! ## Little-endian numbers -/

/-- The `n` low bytes of `v`, lowest first. -/
def littleEndian : Nat → Nat → Bytes
  | 0, _ => []
  | n + 1, v => UInt8.ofNat v :: littleEndian n (v / 256)

/-- The number that the bytes spell, lowest first. -/
def ofLittleEndian : Bytes → Nat
  | [] => 0
  | b :: rest => b.toNat + 256 * ofLittleEndian rest

/-- The `n` low bytes of `v`, highest first. -/
def bigEndian (n v : Nat) : Bytes := (littleEndian n v).reverse

/-- The number that the bytes spell, highest first. -/
def ofBigEndian (b : Bytes) : Nat := ofLittleEndian b.reverse

/-- A 16-bit word, lowest byte first. -/
def ofUInt16 (v : UInt16) : Bytes := littleEndian 2 v.toNat

/-- A 32-bit word, lowest byte first. -/
def ofUInt32 (v : UInt32) : Bytes := littleEndian 4 v.toNat

/-- A 64-bit word, lowest byte first. -/
def ofUInt64 (v : UInt64) : Bytes := littleEndian 8 v.toNat

@[simp] theorem length_littleEndian (n v : Nat) : (littleEndian n v).length = n := by
  induction n generalizing v with
  | zero => rfl
  | succ n ih => simp [littleEndian, ih]

/-- Reading an encoded number back gives it modulo the range of its width. -/
theorem ofLittleEndian_littleEndian (n v : Nat) :
    ofLittleEndian (littleEndian n v) = v % Nat.pow 256 n := by
  induction n generalizing v with
  | zero => exact (Nat.mod_one v).symm
  | succ n ih =>
    have hstep : v % Nat.pow 256 (n + 1) = v % 256 + 256 * (v / 256 % Nat.pow 256 n) := by
      rw [show Nat.pow 256 (n + 1) = 256 * Nat.pow 256 n from Nat.mul_comm _ _, Nat.mod_mul]
    have hbyte : (UInt8.ofNat v).toNat = v % 256 := UInt8.toNat_ofNat'
    rw [littleEndian, ofLittleEndian, ih, hstep, hbyte]

@[simp] theorem length_bigEndian (n v : Nat) : (bigEndian n v).length = n := by simp [bigEndian]

/-- Reading an encoded number back gives it modulo the range of its width. -/
theorem ofBigEndian_bigEndian (n v : Nat) : ofBigEndian (bigEndian n v) = v % Nat.pow 256 n := by
  rw [ofBigEndian, bigEndian, List.reverse_reverse, ofLittleEndian_littleEndian]

@[simp] theorem length_ofUInt16 (v : UInt16) : (ofUInt16 v).length = 2 := by simp [ofUInt16]

@[simp] theorem length_ofUInt32 (v : UInt32) : (ofUInt32 v).length = 4 := by simp [ofUInt32]

@[simp] theorem length_ofUInt64 (v : UInt64) : (ofUInt64 v).length = 8 := by simp [ofUInt64]

end Bytes

end CatalystAsm
