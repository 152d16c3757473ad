import CatalystAsm.Diagnostic.Bag
import CatalystAsm.Source.File
import CatalystAsm.Text.Json

/-!
# Diagnostics as a JSON document

The document lists diagnostics and counts them. There is none when a diagnostic is about a file that
is not known.
-/

namespace CatalystAsm

/-- What goes into a document. -/
structure DocumentOptions where
  /-- whether lines and columns are given besides offsets -/
  positions : Bool := false
  paths : PathStyle := .asIs
  /-- the most diagnostics that are listed; zero or less is no limit -/
  limit : Int := 0
  notes : Bool := false
  /-- the working directory -/
  cwd : Bytes := [0x2f]
  deriving Repr

namespace DiagnosticDocument

/-- A place in a file. -/
def location? (o : DocumentOptions) (files : FileSet) (span : Span) : Option Json := do
  let f ← files.get? span.file
  let first := f.position span.start
  let last := f.position span.stop
  let positions := if !o.positions then [] else
    Json.intField? "start_line" first.line.toNat ++ Json.intField? "start_col" first.column.toNat ++
      Json.intField? "end_line" last.line.toNat ++ Json.intField? "end_col" last.column.toNat
  pure (.object ([Json.textField "file" (o.paths.show o.cwd f),
    Json.natField "start_byte" span.start.toNat,
    Json.natField "end_byte" span.stop.toNat] ++ positions))

/-- A note. -/
def note? (o : DocumentOptions) (files : FileSet) (n : Note) : Option Json := do
  let place ← location? o files n.span
  pure (.object [Json.textField "message" n.message, (.ofString "location", place)])

/-- A diagnostic. -/
def diagnostic? (o : DocumentOptions) (files : FileSet) (d : Diagnostic) : Option Json := do
  let place ← location? o files d.span
  let notes ← (if o.notes then d.notes else []).mapM (note? o files)
  pure (.object ([Json.textField "severity" (.ofString d.severity.name),
    Json.textField "code" (.ofString d.code.id), Json.textField "title" (.ofString d.code.title),
    Json.textField "message" d.message, (.ofString "location", place)] ++
    if notes.isEmpty then [] else [(.ofString "notes", .list notes)]))

end DiagnosticDocument

/-- The diagnostics that a document lists. -/
def DocumentOptions.listed (o : DocumentOptions) (b : Bag) : List Diagnostic :=
  if 0 < o.limit then b.items.take o.limit.toNat else b.items

/-- The document of a bag, unless a file is not known. -/
def Bag.document? (o : DocumentOptions) (files : FileSet) (b : Bag) : Option Json := do
  let listed := o.listed b
  let items ← listed.mapM (DiagnosticDocument.diagnostic? o files)
  pure (.object ([(.ofString "diagnostics", .list items), Json.natField "count" listed.length,
    Json.natField "errors" b.errors, Json.natField "warnings" b.warnings] ++
    Json.intField? "omitted" (b.dropped + b.items.length - listed.length : Nat)))

end CatalystAsm
