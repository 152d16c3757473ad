import CatalystAsm.Statement.Fault

/-!
# Names and integer literals

A name is a letter, `_`, `.` or `$` followed by more of these or decimal digits. An integer literal
is written as in C: `0x` and hexadecimal digits, `0b` and binary digits, `0` and octal digits, or a
decimal number.
-/

namespace CatalystAsm.Statement

/-- Whether a byte is a decimal digit. -/
def isDigit (b : UInt8) : Bool := 0x30 ≤ b && b ≤ 0x39

/-- Whether a byte can start a name. -/
def isNameStart (b : UInt8) : Bool :=
  b == 0x5f || b == 0x2e || b == 0x24 || (0x41 ≤ b && b ≤ 0x5a) || (0x61 ≤ b && b ≤ 0x7a)

/-- Whether a byte can go on a name. -/
def isNameByte (b : UInt8) : Bool := isNameStart b || isDigit b

/-- Whether a byte is a hexadecimal digit of either case. -/
def isHexDigit (b : UInt8) : Bool :=
  isDigit b || (0x61 ≤ b && b ≤ 0x66) || (0x41 ≤ b && b ≤ 0x46)

/-- The value of a hexadecimal digit. -/
def digitValue (b : UInt8) : Nat :=
  if isDigit b then b.toNat - 0x30
  else if 0x61 ≤ b && b ≤ 0x66 then b.toNat - 0x61 + 10
  else b.toNat - 0x41 + 10

/-- The number that digits spell in a base. -/
def digitsValue (base : Nat) (digits : Bytes) : Nat :=
  digits.foldl (fun v b => v * base + digitValue b) 0

/-- A word of 64 bits that digits are added to, and whether it has lost bits on the way. -/
structure Accumulator where
  word : UInt64 := 0
  overflow : Bool := false
  deriving DecidableEq, Repr, Inhabited

/-- One digit more on the right. Bits are lost when the product needs more than a word, or when the
digit makes its low half wrap; the word goes on with the bits that are left. -/
def Accumulator.push (base : Nat) (a : Accumulator) (digit : UInt8) : Accumulator :=
  let product := a.word.toNat * base
  let low := UInt64.ofNat product
  let sum := low + UInt64.ofNat (digitValue digit)
  { word := sum, overflow := a.overflow || UInt64.size ≤ product || sum < low }

/-- The word after all digits. -/
def accumulate (base : Nat) (digits : Bytes) : Accumulator :=
  digits.foldl (Accumulator.push base) {}

/-- The name at the cursor and the cursor after it. -/
def name? (c : Cursor) : Option (Bytes × Cursor) :=
  match c.rest with
  | [] => none
  | b :: _ =>
    if isNameStart b then
      let d := c.skipWhile isNameByte
      some (c.sliceTo d, d)
    else none

/-- The base that a literal announces and the cursor at its first digit. -/
def literalBase (c : Cursor) : Nat × Cursor :=
  match c.rest with
  | 0x30 :: b :: _ =>
    if b == 0x78 || b == 0x58 then (16, c.advance 2)
    else if b == 0x62 || b == 0x42 then (2, c.advance 2)
    else (8, c.advance 1)
  | 0x30 :: _ => (8, c.advance 1)
  | _ => (10, c)

/-- Whether a byte counts as a digit of a literal, in range or not. -/
def isLiteralDigit (base : Nat) (b : UInt8) : Bool := isDigit b || (base == 16 && isHexDigit b)

/-- The integer literal at the cursor. A digit too large for the base, a missing digit, a name byte
after the digits and a number of more than 64 bits are faults, looked for in this order. -/
def integer (c : Cursor) : Scanned UInt64 :=
  let (base, d) := literalBase c
  let digits := d.rest.takeWhile (isLiteralDigit base)
  let stop (fault : Fault) (e : Cursor) : Scanned UInt64 := .error (.about [fault] (c.spanTo e) e)
  match digits.findIdx? (fun b => base ≤ digitValue b) with
  | some i => stop (.digitOutOfRange (digits.getD i 0) base) (d.advance i)
  | none =>
    let e := d.advance digits.length
    let number := accumulate base digits
    if digits.isEmpty && base != 8 then stop .missingDigits e
    else
      match e.rest with
      | b :: _ =>
        if isNameByte b then stop .garbageAfterNumber (e.skipWhile isNameByte)
        else if number.overflow then stop .numberOutOfRange e
        else .ok (number.word, e)
      | [] =>
        if number.overflow then stop .numberOutOfRange e
        else .ok (number.word, e)

end CatalystAsm.Statement
