import CatalystAsm.Bytes

/-!
# Spans and positions

A span is a byte range of one source file; a position is a line and a column, both from one.
-/

namespace CatalystAsm

/-- The byte range `[start, stop)` of one file. -/
structure Span where
  file : UInt32
  start : UInt32
  stop : UInt32
  deriving DecidableEq, Repr, Inhabited

namespace Span

/-- The empty span at an offset. -/
def point (file off : UInt32) : Span := ⟨file, off, off⟩

/-- Whether the span covers no byte. -/
def isEmpty (s : Span) : Bool := s.stop ≤ s.start

/-- The number of bytes covered. -/
def length (s : Span) : UInt32 := if s.isEmpty then 0 else s.stop - s.start

/-- Whether `off` falls inside the span. An empty span contains only its own offset. -/
def contains (s : Span) (off : UInt32) : Bool :=
  if s.isEmpty then off == s.start else s.start ≤ off && off < s.stop

/-- The text `file:start-stop`. -/
def text (s : Span) : Bytes :=
  .concat [.ofNat s.file.toNat, .ofString ":", .ofNat s.start.toNat, .ofString "-",
    .ofNat s.stop.toNat]

end Span

/-- A line and a column, both counted from one. -/
structure Position where
  line : UInt32
  column : UInt32
  deriving DecidableEq, Repr, Inhabited

end CatalystAsm
