import CatalystAsm.Decimal
import CatalystAsm.Text.Character
import CatalystAsm.Time

/-!
# Laps

How long the stages of a file took.
-/

namespace CatalystAsm

/-- A measured stage. -/
structure Lap where
  name : Bytes
  note : Bytes := []
  /-- the nanoseconds it took -/
  duration : Int := 0
  deriving DecidableEq, Repr, Inhabited

/-- The sum of the times of laps. -/
def Lap.total : List Lap → Int
  | [] => 0
  | l :: rest => l.duration + Lap.total rest

/-- The laps so far, and the start of the last one while it runs. -/
structure Stopwatch where
  laps : List Lap := []
  running : Option Instant := none
  deriving DecidableEq, Repr, Inhabited

namespace Stopwatch

/-- Ends the running lap, if there is one. -/
def stop (s : Stopwatch) (now : Instant) (note : Bytes) : Stopwatch :=
  match s.running with
  | none => s
  | some start =>
    { laps := s.laps.modify (s.laps.length - 1) fun l =>
        { l with note, duration := now.ns - start.ns }
      running := none }

/-- Begins a lap, and ends the running one before. -/
def start (s : Stopwatch) (now : Instant) (name : Bytes) : Stopwatch :=
  { laps := (s.stop now []).laps ++ [{ name := name }], running := some now }

/-- The sum of all laps. -/
def total (s : Stopwatch) : Int := Lap.total s.laps

end Stopwatch

namespace LapTable

/-- A text of at least ten characters. -/
def column (b : Bytes) : Bytes := b ++ List.replicate (10 - (Utf8.characters b).length) 0x20

/-- Name and time of a row. -/
def row (name : Bytes) (duration : Int) : Bytes :=
  .concat [.ofString "  ", column name, .ofString " ",
    Bytes.padLeft 7 0x20 (Decimal.milliseconds 2 duration), .ofString " ms"]

/-- A table of laps with a title and the total. -/
def text (title : Bytes) (laps : List Lap) (total : Int) : Bytes :=
  .concat [title, .ofString ":\n",
    laps.flatMap fun l => Bytes.concat [row l.name l.duration,
      if l.note.isEmpty then [] else .ofString "  // " ++ l.note, [0x0a]],
    row (.ofString "total") total, [0x0a]]

end LapTable

end CatalystAsm
