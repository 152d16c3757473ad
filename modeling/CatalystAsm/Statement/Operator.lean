import CatalystAsm.Bytes

/-!
# Operators of expressions

The binary operators with their spelling and binding strength, and the unary operators.
-/

namespace CatalystAsm

/-- The operators between two operands. -/
inductive BinaryOp where
  | orElse | andAlso | equal | notEqual | lessEqual | greaterEqual | shiftLeft | shiftRight
  | bitOr | bitXor | bitAnd | less | greater | add | subtract | multiply | divide | remainder
  deriving DecidableEq, Repr, Inhabited

namespace BinaryOp

/-- Every operator, in the order in which a text is tried against them: those of two bytes before
those of one. -/
def all : List BinaryOp :=
  [.orElse, .andAlso, .equal, .notEqual, .lessEqual, .greaterEqual, .shiftLeft, .shiftRight,
    .bitOr, .bitXor, .bitAnd, .less, .greater, .add, .subtract, .multiply, .divide, .remainder]

/-- How the operator is written. -/
def spelling : BinaryOp → Bytes
  | .orElse => [0x7c, 0x7c]
  | .andAlso => [0x26, 0x26]
  | .equal => [0x3d, 0x3d]
  | .notEqual => [0x21, 0x3d]
  | .lessEqual => [0x3c, 0x3d]
  | .greaterEqual => [0x3e, 0x3d]
  | .shiftLeft => [0x3c, 0x3c]
  | .shiftRight => [0x3e, 0x3e]
  | .bitOr => [0x7c]
  | .bitXor => [0x5e]
  | .bitAnd => [0x26]
  | .less => [0x3c]
  | .greater => [0x3e]
  | .add => [0x2b]
  | .subtract => [0x2d]
  | .multiply => [0x2a]
  | .divide => [0x2f]
  | .remainder => [0x25]

/-- How tightly the operator binds; a larger number binds more tightly. -/
def strength : BinaryOp → Nat
  | .orElse => 1
  | .andAlso => 2
  | .bitOr => 3
  | .bitXor => 4
  | .bitAnd => 5
  | .equal | .notEqual => 6
  | .less | .lessEqual | .greater | .greaterEqual => 7
  | .shiftLeft | .shiftRight => 8
  | .add | .subtract => 9
  | .multiply | .divide | .remainder => 10

/-- The operator that a text begins with. -/
def atStart? (b : Bytes) : Option BinaryOp := all.find? fun op => op.spelling.isPrefixOf b

theorem spelling_length_pos (op : BinaryOp) : 0 < op.spelling.length := by
  cases op <;> decide

end BinaryOp

/-- The operators before an operand. -/
inductive UnaryOp where
  | plus | minus | complement | negate
  deriving DecidableEq, Repr, Inhabited

namespace UnaryOp

/-- The byte of the operator. -/
def spelling : UnaryOp → UInt8
  | .plus => 0x2b
  | .minus => 0x2d
  | .complement => 0x7e
  | .negate => 0x21

/-- The operator that a byte spells. -/
def ofByte? (b : UInt8) : Option UnaryOp :=
  if b == 0x2b then some .plus
  else if b == 0x2d then some .minus
  else if b == 0x7e then some .complement
  else if b == 0x21 then some .negate
  else none

end UnaryOp

end CatalystAsm
