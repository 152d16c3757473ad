import CatalystAsm.Build.File
import CatalystAsm.Text.Width

/-!
# The progress view

While a build runs, a view shows one row per file: a mark for each stage, the path, the time when
the file is finished and the error when it failed. The share of stages that all files are through
never falls as long as the events of a file come in the order of its stages.
-/

namespace CatalystAsm

/-- A report about a file as a view takes it. -/
structure ViewEvent where
  file : Bytes
  /-- the stage, if it is one of the four -/
  stage : Option Stage
  status : Status
  /-- the text of an error that nothing else shows -/
  error : Option Bytes := none
  elapsed : Int := 0
  deriving Repr, Inhabited

/-- The report of a progress event. Diagnostics are shown elsewhere. -/
def Progress.viewEvent (p : Progress) : ViewEvent where
  file := p.file
  stage := some p.stage
  status := p.status
  error := (p.error.filter (!·.isDiagnostics)).map (·.message)
  elapsed := p.elapsed

/-- Where a file stands. -/
structure Row where
  path : Bytes
  stage : Option Stage := none
  status : Status := .queued
  elapsed : Int := 0
  error : Option Bytes := none
  deriving DecidableEq, Repr, Inhabited

namespace Row

/-- Whether nothing more will happen to the file. -/
def isFinished (r : Row) : Bool :=
  r.status == .error || (r.status == .done && r.stage == some .write)

/-- How many stages the file is through; a failed file counts as through all of them. -/
def completed (r : Row) : Nat :=
  match r.status, r.stage with
  | .error, _ => Stage.all.length
  | .done, some s => s.index + 1
  | _, some s => s.index
  | _, none => 0

/-- Takes in a report. -/
def apply (r : Row) (e : ViewEvent) : Row :=
  { r with
    stage := e.stage <|> r.stage
    status := e.status
    elapsed := r.elapsed + e.elapsed
    error := if e.status = .error then e.error else r.error }

/-- The mark of a stage. -/
def mark (r : Row) (s : Stage) : Bytes :=
  let pending : Bytes := .ofString "·"
  match r.stage with
  | none => pending
  | some at_ =>
    if s.index < at_.index then .ofString "●"
    else if at_.index < s.index then pending
    else match r.status with
      | .done => .ofString "●"
      | .working => .ofString "◐"
      | .error => .ofString "✗"
      | .queued => pending

/-- The marks of all stages. -/
def track (r : Row) : Bytes := .intercalate [0x20] (Stage.all.map r.mark)

end Row

/-- A progress view. -/
structure View where
  title : Bytes
  rows : List Row
  width : Int := 80
  barWidth : Int := 60
  /-- how often the spinner moved -/
  ticks : Nat := 0
  /-- no more events come -/
  isClosed : Bool := false
  isInterrupted : Bool := false
  deriving Repr, Inhabited

namespace View

/-- A view before any event. -/
def ofFiles (title : Bytes) (files : List Bytes) : View :=
  { title, rows := files.map fun path => { path } }

/-- Takes in a report. It goes to the last row with the path of the file, if there is one. -/
def apply (v : View) (e : ViewEvent) : View :=
  match v.rows.reverse.findIdx? (·.path == e.file) with
  | none => v
  | some i => { v with rows := v.rows.modify (v.rows.length - 1 - i) (·.apply e) }

/-- How many stages all files are through. -/
def passed (v : View) : Nat := (v.rows.map (·.completed)).foldr (· + ·) 0

/-- Takes in a new width of the terminal. -/
def resize (v : View) (width : Int) : View :=
  if 0 < width then { v with width, barWidth := max (width - 4) 10 } else v

/-- Moves the spinner. -/
def tick (v : View) : View := if v.isClosed then v else { v with ticks := v.ticks + 1 }

/-- Takes note that no more events come. -/
def close (v : View) : View := { v with isClosed := true }

/-- Takes in a key; only one of them matters. Also tells whether the view ends. -/
def press (v : View) (key : Bytes) : View × Bool :=
  if key == .ofString "ctrl+c" then ({ v with isInterrupted := true }, true) else (v, false)

/-! ## Text -/

/-- The positions of the spinner. -/
def spinner : List String := ["⠋", "⠙", "⠹", "⠸", "⠼", "⠴", "⠦", "⠧", "⠇", "⠏"]

/-- A text as a block: tabs are four spaces, and all lines are equally wide. -/
def block (b : Bytes) : Bytes :=
  let spaced := b.flatMap fun c => if c == 0x09 then List.replicate 4 0x20 else [c]
  match (shortLineEnds spaced).splitOn newline with
  | [line] => line
  | lines =>
    let columns := (lines.map Text.width).foldl max 0
    .intercalate [newline] (lines.map (Text.fillRight columns))

/-- The columns of the paths. -/
def nameWidth (v : View) : Nat := (max (v.width - Stage.all.length * 2 - 16) 20).toNat

/-- How many files are finished, and how many failed. -/
def header (v : View) : Bytes :=
  let failed := v.rows.countP (·.status == .error)
  .concat [v.title, [0x20], .ofNat (v.rows.countP (·.isFinished)), .ofString "/",
    .ofNat v.rows.length, .ofString " files",
    if failed = 0 then [] else .concat [.ofString ", ", .ofNat failed, .ofString " failed"]]

/-- The lines of a row. -/
def rowText (v : View) (r : Row) : Bytes :=
  let columns := v.nameWidth
  .concat [.ofString "  ", r.track, .ofString "  ",
    Text.fillRight columns (Text.shorten columns r.path),
    if r.isFinished && 0 < r.elapsed then
      .concat [[0x20], Bytes.padLeft 6 0x20 (Decimal.milliseconds 1 r.elapsed), .ofString "ms"]
    else [],
    [newline],
    match r.error with
    | none => []
    | some e => .concat [.ofString "      ", block (Text.shorten columns e), [newline]]]

/-- The bar, which is empty until the view is closed and full then. -/
def bar (v : View) : Bytes :=
  let cells := (v.barWidth - 5).toNat
  let cell : Bytes := .ofString (if v.isClosed then "█" else "░")
  (List.replicate cells cell).flatten ++ .ofString (if v.isClosed then " 100%" else "   0%")

/-- The text of the view. -/
def text (v : View) : Bytes :=
  if v.rows.isEmpty then []
  else
    let lead := if v.isClosed then "●" else spinner.getD (v.ticks % spinner.length) ""
    .concat [.ofString lead, [0x20], block v.header, .ofString "\n\n", v.rows.flatMap v.rowText,
      [newline], v.bar, [newline]]

end View

end CatalystAsm
