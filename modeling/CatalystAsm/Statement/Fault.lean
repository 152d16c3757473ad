import CatalystAsm.Diagnostic.Basic
import CatalystAsm.Statement.Cursor
import CatalystAsm.Statement.Operator
import CatalystAsm.Text.Character

/-!
# What can be wrong with the text of a statement

A scanner that cannot go on stops with one fault. The fault knows its code and its wording; the
stop adds the span it is about and where the cursor was left.
-/

namespace CatalystAsm

/-- Why a scanner refused a text. -/
inductive Fault where
  | expectedExpression
  | missingParenthesis
  | notAbsolute
  | needsAbsoluteOperands (op : BinaryOp)
  | needsAbsoluteOperand (op : UnaryOp)
  | divisionByZero
  | undefinedSymbol (name : Bytes)
  | digitOutOfRange (digit : UInt8) (base : Nat)
  | missingDigits
  | garbageAfterNumber
  | numberOutOfRange
  | emptyCharacter
  | unterminatedCharacter
  | unterminatedEscape
  | missingHexDigit
  | octalOutOfRange
  | unknownEscape (letter : UInt8)
  | expectedString
  | unterminatedString
  | expectedName (what : Bytes)
  | expectedComma (what : Bytes)
  | garbageAtEnd
  deriving DecidableEq, Repr, Inhabited

namespace Fault

/-- The code that a fault is reported under. -/
def code : Fault → Code
  | expectedExpression | missingParenthesis => .expectExpression
  | notAbsolute | needsAbsoluteOperands _ | needsAbsoluteOperand _ => .notAbsolute
  | divisionByZero => .divisionByZero
  | undefinedSymbol _ => .undefinedSymbol
  | digitOutOfRange .. | missingDigits | garbageAfterNumber | numberOutOfRange
  | emptyCharacter => .badNumber
  | unterminatedCharacter | unterminatedString => .unterminatedString
  | unterminatedEscape | missingHexDigit | octalOutOfRange | unknownEscape _ => .badEscape
  | expectedString => .expectString
  | expectedName _ => .expectName
  | expectedComma _ => .expectComma
  | garbageAtEnd => .garbageAtEnd

/-- The wording of a fault. A byte is shown as the character of that code point. -/
def message : Fault → Bytes
  | expectedExpression => .ofString "Expected expression"
  | missingParenthesis => .ofString "Missing ')'"
  | notAbsolute => .ofString "Expression must be absolute"
  | needsAbsoluteOperands op =>
    .ofString "Operator '" ++ op.spelling ++ .ofString "' needs absolute operands"
  | needsAbsoluteOperand op =>
    .ofString "Unary '" ++ [op.spelling] ++ .ofString "' needs absolute operand"
  | divisionByZero => .ofString "Division by zero"
  | undefinedSymbol name => .ofString "Undefined symbol '" ++ name ++ .ofString "'"
  | digitOutOfRange digit base =>
    .ofString "Digit '" ++ Utf8.encode digit.toNat ++ .ofString "' out of range for base " ++
      .ofNat base
  | missingDigits => .ofString "Missing digits in number"
  | garbageAfterNumber => .ofString "Garbage at end of number"
  | numberOutOfRange => .ofString "Number out of range"
  | emptyCharacter => .ofString "Empty character literal"
  | unterminatedCharacter => .ofString "Unterminated character literal"
  | unterminatedEscape => .ofString "Unterminated escape sequence"
  | missingHexDigit => .ofString "Expected hexadecimal digit in escape"
  | octalOutOfRange => .ofString "Octal escape out of range"
  | unknownEscape letter =>
    .ofString "Unknown escape sequence '\\" ++ Utf8.encode letter.toNat ++ .ofString "'"
  | expectedString => .ofString "Expected string"
  | unterminatedString => .ofString "Unterminated string"
  | expectedName what => .ofString "Expected " ++ what
  | expectedComma what => .ofString "Expected ',' before " ++ what
  | garbageAtEnd => .ofString "Garbage at end of line"

end Fault

/-- A fault, and the span of the text that it is about. -/
structure Finding where
  fault : Fault
  span : Span
  deriving DecidableEq, Repr, Inhabited

/-- The error that a finding is reported as. -/
def Finding.diagnostic (f : Finding) : Diagnostic :=
  { severity := .error, code := f.fault.code, message := f.fault.message, span := f.span }

/-- A scanner that stopped: what it found, and where the cursor was left. -/
structure Stop where
  findings : List Finding
  cursor : Cursor
  deriving DecidableEq, Repr, Inhabited

namespace Stop

/-- Stops with faults that are about one span. -/
def about (faults : List Fault) (span : Span) (cursor : Cursor) : Stop :=
  ⟨faults.map (⟨·, span⟩), cursor⟩

/-- The errors that a stop is reported as. -/
def reports (s : Stop) : List Diagnostic := s.findings.map (·.diagnostic)

end Stop

/-- What a scanner gives: a value and the cursor after it, or a stop. -/
abbrev Scanned (α : Type) := Except Stop (α × Cursor)

end CatalystAsm
