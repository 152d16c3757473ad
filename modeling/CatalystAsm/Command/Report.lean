import CatalystAsm.Build.File
import CatalystAsm.Command.Problem
import CatalystAsm.Diagnostic.Document
import CatalystAsm.Diagnostic.Pretty
import CatalystAsm.Diagnostic.Short

/-!
# Reports about a build

The diagnostics of all files in one of three forms, and then a line about each file.
-/

namespace CatalystAsm.Command

/-- The form of diagnostics. -/
inductive ReportFormat where
  | pretty | json | short
  deriving DecidableEq, Repr, Inhabited

/-- The form that the flags ask for. -/
def ReportFormat.ofGiven (given : Given) : Except Problem ReportFormat :=
  let low := Text.lower (given.text "format" "pretty")
  if low == .ofString "pretty" then .ok .pretty
  else if low == .ofString "json" then .ok .json
  else if low == .ofString "short" then .ok .short
  else .error (.unknownFormat low "pretty, json or short")

namespace Report

/-- The diagnostics of a file with source lines, and how many were dropped. -/
def pretty (color : Bool) (r : BuildResult) : Bytes :=
  if r.bag.items.isEmpty then []
  else
    let text := prettyText? { color, notes := true } r.files r.bag.sort.items
    text.getD [] ++ if r.bag.dropped = 0 then [] else
      Bytes.concat [r.path, .ofString ": ", .ofNat r.bag.dropped,
        .ofString " more diagnostics not shown\n"]

/-- The diagnostics of a file, one on each line. -/
def short (r : BuildResult) : Bytes :=
  if r.bag.items.isEmpty then [] else shortText r.files true r.bag.items ++ [newline]

/-- The diagnostics of a file in a document. -/
def document (limit : Int) (r : BuildResult) : Json :=
  let fields := match r.bag.sort.document? { positions := true, limit, notes := true } r.files with
    | some (.object fields) => fields
    | _ => []
  .object (Json.textField "file" r.path :: (.ofString "ok", .flag r.error.isNone) :: fields)

/-- Prints the diagnostics of all files. -/
def diagnostics (given : Given) (format : ReportFormat) (results : List BuildResult) :
    Action Unit := do
  match format with
  | .json =>
    let limit := given.integer "max-diagnostics" 100
    Program.print (Json.document (.list (results.map (document limit))))
  | .short => Program.print (results.flatMap short) .err
  | .pretty =>
    let color ← wantsColor given .err
    Program.print (results.flatMap (pretty color)) .err

/-- What is said about a file on each channel. Diagnostics that were shown say enough. -/
def outcome (given : Given) (format : ReportFormat) (output : Bytes) (r : BuildResult) :
    List (Host.Channel × Bytes) :=
  match r.error with
  | some e =>
    if e.isDiagnostics || format = .json then []
    else [(.err, .concat [r.path, .ofString ": ", e.message, [newline]])]
  | none =>
    (if given.switch "quiet" || format ≠ .pretty then []
      else [(.out, .concat [r.path, .ofString " -> ", output, .ofString " (",
        .ofNat (r.binary.getD []).length, .ofString " bytes)\n"])]) ++
    if given.switch "timings" then
      [(.err, LapTable.text r.path r.laps (Lap.total r.laps))]
    else []

end Report

end CatalystAsm.Command
