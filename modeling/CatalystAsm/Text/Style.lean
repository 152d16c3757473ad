import CatalystAsm.Bytes

/-!
# Styles of terminal text

A style is a list of attributes. Turned on, it stands before the text as one control sequence, and
one that ends each attribute stands behind.
-/

namespace CatalystAsm

/-- An attribute of terminal text. -/
inductive Attribute where
  | bold | red | green | yellow | blue | cyan
  deriving DecidableEq, Repr

/-- The number that turns an attribute on. -/
def Attribute.on : Attribute → Nat
  | .bold => 1
  | .red => 31
  | .green => 32
  | .yellow => 33
  | .blue => 34
  | .cyan => 36

/-- The number that turns an attribute off: bold has one of its own, colours go with all others. -/
def Attribute.off : Attribute → Nat
  | .bold => 22
  | _ => 0

/-- A list of attributes. -/
abbrev Style := List Attribute

namespace Style

/-- A control sequence with the given numbers. -/
def sequence (numbers : List Nat) : Bytes :=
  .concat [[0x1b], .ofString "[", .intercalate (.ofString ";") (numbers.map .ofNat), .ofString "m"]

/-- The text in a style, or plain when styles are not `enabled`. -/
def apply (s : Style) (enabled : Bool) (text : Bytes) : Bytes :=
  if enabled then sequence (s.map (·.on)) ++ text ++ sequence (s.map (·.off)) else text

end Style

end CatalystAsm
