import CatalystAsm.Diagnostic.Basic
import CatalystAsm.Source.File
import CatalystAsm.Text.Character

/-!
# Diagnostics on one line each

The lines are ordered by path, line and column; lines at the same place keep their order. What is
not in a known file has no place and comes first.
-/

namespace CatalystAsm

namespace Short

/-- One line: the place, if it is known, the severity and the message. -/
structure Line where
  path : Bytes := []
  position : Position := ⟨0, 0⟩
  severity : String
  message : Bytes
  deriving Repr

/-- The message on one line, without blanks at its ends. -/
def flatten (message : Bytes) : Bytes :=
  Text.trim ((shortLineEnds message).map fun b => if b == newline then 0x20 else b)

/-- The line for a message at a span. -/
def line (files : FileSet) (span : Span) (severity : String) (message : Bytes) : Line :=
  match files.get? span.file with
  | none => { severity, message := flatten message }
  | some f =>
    { path := f.path, position := f.position span.start, severity, message := flatten message }

/-- The lines of a diagnostic, with its notes if they are asked for. -/
def lines (files : FileSet) (withNotes : Bool) (d : Diagnostic) : List Line :=
  line files d.span d.severity.label d.message ::
    if withNotes then d.notes.map fun n => line files n.span "Note" n.message else []

/-- Whether `a` may stand before `b`. -/
def inOrder (a b : Line) : Bool :=
  ((Bytes.order a.path b.path).then <|
    (compare a.position.line b.position.line).then <|
    compare a.position.column b.position.column) != .gt

/-- The text of a line. -/
def Line.text (l : Line) : Bytes :=
  let place := if l.path.isEmpty then [] else Bytes.concat [l.path, .ofString ":",
    .ofNat l.position.line.toNat, .ofString ":", .ofNat l.position.column.toNat, .ofString ": "]
  .concat [place, .ofString l.severity, .ofString ": ", l.message]

end Short

/-- The diagnostics, one on a line, in the order of their places. -/
def shortText (files : FileSet) (withNotes : Bool) (ds : List Diagnostic) : Bytes :=
  .intercalate [newline] (((ds.flatMap (Short.lines files withNotes)).mergeSort Short.inOrder).map
    Short.Line.text)

end CatalystAsm
