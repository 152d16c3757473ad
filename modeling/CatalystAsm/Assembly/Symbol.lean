import CatalystAsm.Container.Elf
import CatalystAsm.Statement.Expression

/-!
# Symbols of an assembly
-/

namespace CatalystAsm

/-- A symbol: mentioned, or defined with a value. Its home is the section that the value is an
offset of; an absolute value has none. -/
structure Symbol where
  name : Bytes
  value : UInt64 := 0
  size : UInt64 := 0
  home : Option Nat := none
  defined : Bool := false
  info : UInt8 := 0
  other : UInt8 := 0
  span : Span
  deriving DecidableEq, Repr, Inhabited

namespace Symbol

/-- The binding of a symbol. -/
def bind (s : Symbol) : UInt8 := Elf.bindOf s.info

/-- The symbol with another binding. -/
def withBind (s : Symbol) (bind : UInt8) : Symbol :=
  { s with info := Elf.symbolInfo bind (s.info &&& 0x0f) }

/-- What a defined symbol stands for in an expression. -/
def toValue (s : Symbol) : Value :=
  match s.home with
  | none => { bits := s.value }
  | some id => { bits := s.value, home := UInt32.ofNat id, relative := true }

/-- The symbol, defined as a value at a place. -/
def define (s : Symbol) (v : Value) (span : Span) : Symbol :=
  { s with
    defined := true
    span
    value := v.bits
    home := if v.relative then some v.home.toNat else none }

/-- The symbol of a name. -/
def find? (symbols : List Symbol) (name : Bytes) : Option Symbol :=
  symbols.find? (·.name == name)

/-- The list with the symbol of `name` changed by `f`; a symbol that is not there yet is added at
the end, with `span` as its first mention. -/
def update (symbols : List Symbol) (name : Bytes) (span : Span) (f : Symbol → Symbol) :
    List Symbol :=
  if symbols.any (·.name == name) then symbols.map fun s => if s.name == name then f s else s
  else symbols ++ [f { name, span }]

/-- The symbols in the order of their names. -/
def sorted (symbols : List Symbol) : List Symbol :=
  symbols.mergeSort fun a b => Bytes.atMost a.name b.name

end Symbol

end CatalystAsm
