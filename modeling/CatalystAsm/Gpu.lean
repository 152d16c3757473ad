import CatalystAsm.Text.Lower

/-!
# Devices and architectures

The devices that can be assembled for, by number, each with its name and its architecture.
-/

namespace CatalystAsm

/-- An architecture, by number. -/
structure Architecture where
  id : UInt8
  deriving DecidableEq, Repr, Inhabited

/-- A device, by number; 0 is no device in particular. -/
structure Device where
  id : UInt8 := 0
  deriving DecidableEq, Repr, Inhabited

namespace Device

/-- The name and the architecture of each device, in the order of their numbers. -/
def table : List (String × Architecture) := [
  ("UNDEFINED", ⟨0⟩), ("capeverde", ⟨0⟩), ("pitcairn", ⟨0⟩), ("tahiti", ⟨0⟩), ("oland", ⟨0⟩),
  ("bonaire", ⟨1⟩), ("spectre", ⟨1⟩), ("spooky", ⟨1⟩), ("kalindi", ⟨1⟩), ("hainan", ⟨0⟩),
  ("hawaii", ⟨1⟩), ("iceland", ⟨2⟩), ("tonga", ⟨2⟩), ("mullins", ⟨1⟩), ("fiji", ⟨2⟩),
  ("carrizo", ⟨2⟩), ("dummy", ⟨2⟩), ("goose", ⟨2⟩), ("horse", ⟨2⟩), ("stoney", ⟨2⟩),
  ("ellesmere", ⟨2⟩), ("baffin", ⟨2⟩), ("gfx804", ⟨2⟩), ("gfx900", ⟨3⟩), ("gfx901", ⟨3⟩)]

/-- Other names of devices. -/
def aliases : List (String × Device) := [
  ("polaris10", ⟨20⟩), ("polaris11", ⟨21⟩), ("polaris12", ⟨22⟩), ("polaris20", ⟨20⟩),
  ("polaris21", ⟨21⟩), ("polaris22", ⟨22⟩), ("raven", ⟨24⟩), ("topaz", ⟨11⟩), ("vega10", ⟨23⟩),
  ("vega11", ⟨24⟩)]

/-- The last device that kernel metadata can name. -/
def mullins : Device := ⟨13⟩

/-- Whether the number is that of a device. -/
def isKnown (d : Device) : Bool := d.id.toNat < table.length

/-- The name of a device. -/
def name (d : Device) : String := (table[d.id.toNat]?.map (·.1)).getD "UNKNOWN"

/-- The architecture of a device. -/
def architecture (d : Device) : Architecture := (table[d.id.toNat]?.map (·.2)).getD ⟨0⟩

/-- All devices but the undefined one, in order. -/
def all : List Device := (List.range (table.length - 1)).map fun i => ⟨UInt8.ofNat (i + 1)⟩

/-- The device of a name or another name, whatever the case of the letters. -/
def ofName? (name : Bytes) : Option Device :=
  let low := Text.lower name
  match all.find? fun d => Bytes.ofString d.name == low with
  | some d => some d
  | none => (aliases.find? fun a => Bytes.ofString a.1 == low).map (·.2)

end Device

namespace Architecture

/-- The name of an architecture. -/
def name (a : Architecture) : String :=
  ["GCN1.0", "GCN1.1", "GCN1.2", "GCN1.4"].getD a.id.toNat "UNKNOWN"

/-- The first device of an architecture. -/
def lowestDevice (a : Architecture) : Device :=
  ([⟨1⟩, ⟨5⟩, ⟨12⟩, ⟨23⟩] : List Device).getD a.id.toNat ⟨0⟩

/-- The names that architectures are asked for by. -/
def names : List (String × Architecture) := [
  ("gcn1.0", ⟨0⟩), ("gcn1.1", ⟨1⟩), ("gcn1.2", ⟨2⟩), ("gcn1.4", ⟨3⟩),
  ("gfx6", ⟨0⟩), ("gfx7", ⟨1⟩), ("gfx8", ⟨2⟩), ("gfx9", ⟨3⟩),
  ("si", ⟨0⟩), ("ci", ⟨1⟩), ("vi", ⟨2⟩), ("vega", ⟨3⟩)]

/-- The architecture of a name, whatever the case of the letters. -/
def ofName? (name : Bytes) : Option Architecture :=
  let low := Text.lower name
  (names.find? fun a => Bytes.ofString a.1 == low).map (·.2)

end Architecture

/-- What is said about an unknown device name. -/
def unknownDeviceMessage : Bytes := .ofString "Unknown GPU device type"

/-- What is said about an unknown architecture name. -/
def unknownArchitectureMessage : Bytes := .ofString "Unknown GPU architecture"

end CatalystAsm
