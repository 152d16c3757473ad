import CatalystAsm.Diagnostic.Basic
import CatalystAsm.Source.File
import CatalystAsm.Text.Style

/-!
# Diagnostics with source lines

Each diagnostic has a header line, the source line it is about with lines around it, and a marker
under the span. There is no text when a diagnostic is about a file that is not known, or at a column
past the range of columns.
-/

namespace CatalystAsm

/-- How diagnostics are shown with source lines. -/
structure PrettyOptions where
  color : Bool := false
  /-- how many lines are shown above and below -/
  context : Int := 0
  paths : PathStyle := .asIs
  notes : Bool := false
  /-- the working directory -/
  cwd : Bytes := [0x2f]
  deriving Repr

namespace Pretty

/-- The style of a severity. -/
def severityStyle (s : Severity) : Style :=
  if s = .error then [.red, .bold] else if s = .warning then [.yellow, .bold] else [.cyan, .bold]

/-- The header line of a message; a note has no code. -/
def header (o : PrettyOptions) (f : SourceFile) (span : Span) (label : Bytes) (code : Bytes)
    (message : Bytes) : Bytes :=
  let at_ := f.position span.start
  let place := Bytes.concat [o.paths.show o.cwd f, .ofString ":", .ofNat at_.line.toNat,
    .ofString ":", .ofNat at_.column.toNat, .ofString ":"]
  .concat [Style.apply [.bold] o.color place, .ofString " ", label,
    if code.isEmpty then [] else .ofString " " ++ code, .ofString ": ", message, [newline]]

/-- What stands left of a source line. -/
def gutter (o : PrettyOptions) (width : Nat) (label : Bytes) : Bytes :=
  Style.apply [.blue] o.color (Bytes.padLeft width 0x20 label ++ .ofString " |") ++ [0x20]

/-- The marker under a span: from its start to its end, or to the end of the line when it goes
further. -/
def marker (o : PrettyOptions) (first last : Position) (lineLength : Nat) : Bytes :=
  let stop := if last.line = first.line then last.column.toNat - 1 else lineLength
  let n := stop + 1 - first.column.toNat
  .concat [List.replicate (first.column.toNat - 1) 0x20,
    Style.apply [.green, .bold] o.color (Bytes.char '^' :: List.replicate (n - 1) (Bytes.char '~'))]

/-- A source line, with the marker under it when it is the line of the span. -/
def sourceLine (o : PrettyOptions) (f : SourceFile) (span : Span) (width n : Nat) : Bytes :=
  match f.lineBounds n with
  | none => []
  | some (start, stop) =>
    let text := (f.slice start stop).map fun b => if b == 0x09 then 0x20 else b
    let first := f.position span.start
    let shown := gutter o width (.ofNat n) ++ text ++ [newline]
    if n = first.line.toNat then
      shown ++ gutter o width [] ++ marker o first (f.position span.stop) (stop - start) ++
        [newline]
    else shown

/-- The source lines around a span. -/
def context (o : PrettyOptions) (f : SourceFile) (span : Span) (around : Nat) : Bytes :=
  let line := (f.position span.start).line.toNat
  let first := max (line - around) 1
  let last := line + around
  let width := (Bytes.ofNat last).length
  (List.range (min last (f.newlines.length + 1) + 1 - first)).flatMap fun i =>
    sourceLine o f span width (first + i)

/-- The source lines around a span, unless its column is past the range of columns. -/
def context? (o : PrettyOptions) (f : SourceFile) (span : Span) (around : Int) : Option Bytes :=
  if around < 0 then some []
  else if (f.position span.start).column = 0 then none
  else some (context o f span around.toNat)

/-- A diagnostic with its notes, unless a file is not known. -/
def diagnostic? (o : PrettyOptions) (files : FileSet) (d : Diagnostic) : Option Bytes := do
  let f ← files.get? d.span.file
  let label := Style.apply (severityStyle d.severity) o.color (.ofString d.severity.name)
  let notes ← (if o.notes then d.notes else []).mapM fun n => do
    let g ← files.get? n.span.file
    let label := Style.apply [.blue] o.color (.ofString "NOTE")
    let lines ← context? o g n.span 0
    pure (header o g n.span label [] n.message ++ lines)
  let lines ← context? o f d.span o.context
  pure (.concat (header o f d.span label (.ofString d.code.id) d.message :: lines :: notes))

end Pretty

/-- The diagnostics with source lines, unless a file is not known. -/
def prettyText? (o : PrettyOptions) (files : FileSet) (ds : List Diagnostic) : Option Bytes :=
  (ds.mapM (Pretty.diagnostic? o files)).map .concat

end CatalystAsm
