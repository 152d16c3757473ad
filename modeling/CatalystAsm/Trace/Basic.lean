import CatalystAsm.Text.Character
import CatalystAsm.Text.Lower
import CatalystAsm.Text.Printable

/-!
# What a trace records

A trace is a tree of spans with points in it. Each event has a kind and a scope; the level of a
trace tells which scopes it records. Kinds, scopes, levels and modes are numbers, of which the first
few have names.
-/

namespace CatalystAsm.Trace

/-- The entry of a list of names, `unknown` past its end. -/
def nameIn (names : List String) (n : UInt8) : String := names.getD n.toNat "unknown"

/-- The kind of an event. -/
structure Kind where
  number : UInt8
  deriving DecidableEq, Repr, Inhabited

namespace Kind

def spanBegin : Kind := ⟨1⟩

def spanEnd : Kind := ⟨2⟩

def point : Kind := ⟨3⟩

/-- A sign of life, which every level records. -/
def heartbeat : Kind := ⟨4⟩

/-- The name of a kind. -/
def name (k : Kind) : String := nameIn ["unknown", "begin", "end", "point", "heartbeat"] k.number

/-- What stands before the name of an event. -/
def mark (k : Kind) : String := ["", "→ ", "← ", "• ", "♡ "].getD k.number.toNat ""

end Kind

/-- How fine the work is that an event is about; the build is the coarsest. -/
structure Scope where
  number : UInt8
  deriving DecidableEq, Repr, Inhabited

namespace Scope

def build : Scope := ⟨1⟩

def file : Scope := ⟨2⟩

def stage : Scope := ⟨3⟩

def kernel : Scope := ⟨4⟩

def directive : Scope := ⟨5⟩

/-- The name of a scope. -/
def name (s : Scope) : String :=
  nameIn ["unknown", "build", "file", "stage", "kernel", "directive"] s.number

end Scope

/-- How much a trace records. -/
structure Level where
  number : UInt8 := 0
  deriving DecidableEq, Repr, Inhabited

namespace Level

def off : Level := ⟨0⟩

/-- The same spans as `phase`, in memory only. -/
def error : Level := ⟨1⟩

def phase : Level := ⟨2⟩

def detail : Level := ⟨3⟩

def debug : Level := ⟨4⟩

/-- The names of the levels in the order of their numbers. -/
def names : List String := ["off", "error", "phase", "detail", "debug"]

/-- The name of a level. -/
def name (l : Level) : String := nameIn names l.number

/-- Whether anything may be recorded. -/
def isEnabled (l : Level) : Bool := 0 < l.number

/-- Whether events of a scope are recorded. -/
def records (l : Level) (s : Scope) : Bool :=
  if l = error || l = phase then s.number ≤ Scope.stage.number
  else if l = detail then s.number ≤ Scope.kernel.number
  else l = debug

end Level

/-- Where events go. -/
structure Mode where
  number : UInt8 := 0
  deriving DecidableEq, Repr, Inhabited

namespace Mode

def stream : Mode := ⟨1⟩

def ring : Mode := ⟨2⟩

def both : Mode := ⟨3⟩

/-- The names of the modes in the order of their numbers. -/
def names : List String := ["unknown", "stream", "ring", "both"]

/-- The name of a mode. -/
def name (m : Mode) : String := nameIn names m.number

end Mode

/-- How events are written. -/
structure Format where
  number : UInt8 := 0
  deriving DecidableEq, Repr, Inhabited

namespace Format

def text : Format := ⟨0⟩

/-- One JSON object on each line. -/
def json : Format := ⟨1⟩

/-- As the name of the output file tells. -/
def auto : Format := ⟨2⟩

/-- The format for an output file. -/
def resolve (f : Format) (path : Bytes) : Format :=
  if f ≠ auto then f
  else if [".ndjson", ".json"].any fun ending => (Bytes.ofString ending).isSuffixOf path then json
  else text

end Format

/-! ## Names to choose by -/

/-- The message about a name that is not among the ones that can be chosen. -/
def invalidChoice (what : String) (text : Bytes) (choices : String) : Bytes :=
  .concat [.ofString "invalid ", .ofString what, .ofString ": ", Text.quoted text,
    .ofString " (expected: ", .ofString choices, .ofString ")"]

/-- The number of a name in a list of names. -/
def numberIn? (names : List String) (text : Bytes) : Option UInt8 :=
  (names.findIdx? fun n => Bytes.ofString n == text).map UInt8.ofNat

/-- The level of a name, in any case of letters. -/
def Level.ofName (text : Bytes) : Except Bytes Level :=
  match numberIn? Level.names (Text.lower text) with
  | some n => .ok ⟨n⟩
  | none => .error (invalidChoice "trace level" text "off|error|phase|detail|debug")

/-- The mode of a name, in any case of letters and with blanks around. -/
def Mode.ofName (text : Bytes) : Except Bytes Mode :=
  let low := Text.lower (Text.trim text)
  match numberIn? Mode.names low with
  | some 0 | none => .error (invalidChoice "storage mode" low "stream|ring|both")
  | some n => .ok ⟨n⟩

/-- The format of a name, in any case of letters. -/
def Format.ofName (text : Bytes) : Except Bytes Format :=
  match numberIn? ["text", "ndjson", "auto", "json", ""] (Text.lower text) with
  | none => .error (invalidChoice "trace format" text "auto|text|ndjson")
  | some 3 => .ok Format.json
  | some 4 => .ok Format.auto
  | some n => .ok ⟨n⟩

end CatalystAsm.Trace
