import CatalystAsm.Assembly.Prepare
import CatalystAsm.Build.Laps
import CatalystAsm.Build.Stage
import CatalystAsm.Build.Traced
import CatalystAsm.Container.Binary
import CatalystAsm.Diagnostic.Bag
import CatalystAsm.Dump.Model

/-!
# Building files

A file is assembled, its model is prepared, the binary is laid out and the results are written. The
first stage that fails ends the build of the file. What happened is a list of stage records, from
which both the progress events and the laps come.
-/

namespace CatalystAsm

/-- What is to be built of a source file. -/
structure BuildRequest where
  path : Bytes
  options : Options := {}
  /-- where the binary goes; nowhere when empty -/
  output : Bytes := []
  /-- where the dump of the model goes; nowhere when empty -/
  model : Bytes := []
  maxDiagnostics : Int := 0
  deriving Repr, Inhabited

/-- Why the build of a file failed. -/
inductive BuildError where
  | unreadable (path : Bytes) (fault : Host.Failure)
  /-- the build was cancelled while the source was assembled -/
  | cancelled
  /-- the source has errors -/
  | diagnostics
  | noModel (error : PrepareError)
  | noBinary (error : ImageError)
  | noDirectory (fault : Host.Failure)
  | unwritable (fault : Host.Failure)
  deriving Repr, Inhabited

namespace BuildError

/-- The wording of an error. -/
def message : BuildError → Bytes
  | .unreadable path fault => .concat [path, .ofString ": ", fault.message]
  | .cancelled => Host.cancelledMessage
  | .diagnostics => .ofString "assembly reported errors"
  | .noModel error => error.message
  | .noBinary error => error.message
  | .noDirectory fault => .ofString "failed to create output dir: " ++ fault.message
  | .unwritable fault => fault.message

/-- Whether the diagnostics tell the error already. -/
def isDiagnostics : BuildError → Bool
  | .diagnostics => true
  | _ => false

/-- Whether the build of the file was cancelled. -/
def isCancelled : BuildError → Bool
  | .cancelled => true
  | _ => false

end BuildError

/-- A stage that a file went through. -/
structure StageRecord where
  stage : Stage
  note : Bytes := []
  error : Option BuildError := none
  /-- the nanoseconds it took -/
  duration : Int := 0
  deriving Repr, Inhabited

/-- A report about the progress of a file. -/
structure Progress where
  file : Bytes
  stage : Stage
  status : Status
  error : Option BuildError := none
  /-- the nanoseconds that a finished stage took -/
  elapsed : Int := 0
  deriving Repr, Inhabited

namespace StageRecord

/-- The events of a stage: that it began, and how it ended. -/
def events (file : Bytes) (r : StageRecord) : List Progress :=
  [{ file, stage := r.stage, status := .working },
    match r.error with
    | none => { file, stage := r.stage, status := .done, elapsed := r.duration }
    | some e => { file, stage := r.stage, status := .error, error := some e }]

/-- The lap of a stage. -/
def lap (r : StageRecord) : Lap := ⟨r.stage.name, r.note, r.duration⟩

end StageRecord

/-- What became of a file. -/
structure BuildResult where
  path : Bytes
  files : FileSet := {}
  bag : Bag := {}
  model : Option Model := none
  binary : Option Bytes := none
  stages : List StageRecord := []
  deriving Inhabited

namespace BuildResult

/-- Why the build failed, if it did. -/
def error (r : BuildResult) : Option BuildError := r.stages.findSome? (·.error)

/-- The laps of the stages. -/
def laps (r : BuildResult) : List Lap := r.stages.map (·.lap)

/-- The progress events of the file, apart from the one that it is queued. -/
def events (r : BuildResult) : List Progress := r.stages.flatMap (·.events r.path)

/-- Reports diagnostics. -/
def report (r : BuildResult) (ds : List Diagnostic) : BuildResult :=
  { r with bag := r.bag.addAll ds }

/-- An error at the start of the file. -/
def failure (code : Code) (message : Bytes) : Diagnostic :=
  { severity := .error, code, message, span := ⟨0, 0, 0⟩ }

end BuildResult

namespace Build

open Traced

/-- A stage that ended with a note: either with a value, or with an error. -/
structure Ended (α : Type) where
  note : Bytes
  outcome : Except BuildError α

/-- Runs a stage of the file whose span is at `place`, and puts it on record. -/
def stage {α : Type} (place : Nat) (s : Stage) (r : BuildResult)
    (body : Nat → BuildResult → Traced (BuildResult × Ended α)) :
    Traced (BuildResult × Option α) := do
  let started ← (Program.now : Program Instant)
  let span ← child place .stage s.name
  let (r, ended) ← body span r
  let finished ← (Program.now : Program Instant)
  let error := match ended.outcome with
    | .ok _ => none
    | .error e => some e
  if let some e := error then attach span (.ofString "error") e.message
  end_ span ended.note
  let entry : StageRecord :=
    { stage := s, note := ended.note, error, duration := finished.ns - started.ns }
  return ({ r with stages := r.stages ++ [entry] }, ended.outcome.toOption)

/-- Asks at each of the next `left` checks whether the work was cancelled, and tells the first one
where it was. -/
def cancelledAt (left check : Nat) : Program (Option Nat) :=
  match left with
  | 0 => return none
  | left + 1 => do
    if ← Program.isCancelled then return some check
    cancelledAt left (check + 1)

/-- Reads and assembles the source. -/
def assemble (request : BuildRequest) (span : Nat) (r : BuildResult) :
    Traced (BuildResult × Ended Assembler) := do
  match ← (Program.read request.path : Program _) with
  | .error fault =>
    let r := { r with files := r.files.add request.path [] .inMemory }
    let r := r.report [BuildResult.failure .unreadableFile
      (.ofString "failed to load file: " ++ fault.message)]
    return (r, ⟨.ofString "load failed", .error (.unreadable request.path fault)⟩)
  | .ok stored =>
    let (content, flags) := readyText stored
    let r := { r with files := r.files.add request.path content flags }
    let source := r.files.files.getLastD default
    let cancelled ← (cancelledAt (Assembly.checks source) 0 : Program _)
    let run := Assembly.ofFile request.options source cancelled
    for event in run.events do
      if let .directive name .. := event then point span .directive name []
    let r := r.report run.reports
    let note := .ofNat (content.count newline) ++ .ofString " lines"
    if ← (Program.isCancelled : Program Bool) then return (r, ⟨note, .error .cancelled⟩)
    let good := run.succeeded && !r.bag.hasErrors
    return (r, ⟨note, if good then .ok run.state else .error .diagnostics⟩)

/-- Makes the model. -/
def prepare (a : Assembler) (_ : Nat) (r : BuildResult) : Traced (BuildResult × Ended Model) := do
  let r := r.report a.prepare.2
  match a.completed with
  | .error e => return (r, ⟨[], .error (.noModel e)⟩)
  | .ok model =>
    let note := .ofNat model.kernelList.length ++ .ofString " kernels"
    return ({ r with model := some model }, ⟨note, .ok model⟩)

/-- Lays out the binary. -/
def layout (m : Model) (span : Nat) (r : BuildResult) : Traced (BuildResult × Ended Bytes) := do
  for part in m.planned do
    point span .kernel (.ofString "kernel " ++ part.name)
      (.concat [.ofString "size=", .ofNat part.plan.size, .ofString " notes=", .ofNat part.notes])
  match m.generate with
  | .error e =>
    return (r.report [BuildResult.failure .noBinary e.message], ⟨[], .error (.noBinary e)⟩)
  | .ok binary =>
    return ({ r with binary := some binary },
      ⟨.ofNat binary.length ++ .ofString " bytes", .ok binary⟩)

/-- Writes the dump of the model, if one is wanted. -/
def writeModel (path : Bytes) (m : Model) : Program (Except BuildError Unit) := do
  if path.isEmpty then return .ok ()
  return (← Program.replaceFile ".model-" path (Dump.write m)).mapError .unwritable

/-- Writes the binary, if it is wanted, into a directory that is made when it is missing. -/
def writeBinary (path binary : Bytes) : Program (Except BuildError Unit) := do
  if path.isEmpty then return .ok ()
  match ← Program.makeDirectories (Path.directory path) with
  | .error fault => return .error (.noDirectory fault)
  | .ok () => return (← Program.replaceFile ".clrxasm-" path binary).mapError .unwritable

/-- Writes the results. -/
def write (request : BuildRequest) (m : Model) (binary : Bytes) (_ : Nat) (r : BuildResult) :
    Traced (BuildResult × Ended Unit) := do
  let failed (note : Bytes) (e : BuildError) : BuildResult × Ended Unit :=
    (r.report [BuildResult.failure .unwritableFile e.message], ⟨note, .error e⟩)
  match ← (writeModel request.model m : Program _) with
  | .error e => return failed request.model e
  | .ok () =>
    match ← (writeBinary request.output binary : Program _) with
    | .error e => return failed request.output e
    | .ok () => return (r, ⟨request.output, .ok ()⟩)

/-- Takes a file through all its stages; `place` is the place of its span. -/
def stages (request : BuildRequest) (place : Nat) (r : BuildResult) : Traced BuildResult := do
  let (r, assembled) ← stage place .assemble r (assemble request)
  let some a := assembled | return r
  let (r, prepared) ← stage place .prepare r (prepare a)
  let some m := prepared | return r
  let (r, binary) ← stage place .layout r (layout m)
  let some b := binary | return r
  if request.output.isEmpty && request.model.isEmpty then return r
  let (r, _) ← stage place .write r (write request m b)
  return r

/-- Builds one file, within the span at `current`. -/
def file (request : BuildRequest) (current : Option Nat) : Traced BuildResult := do
  let place ← beginUnder current .file (.ofString "file " ++ request.path)
  let r ← stages request place { path := request.path, bag := .withLimit request.maxDiagnostics }
  end_ place (.ofNat r.bag.items.length ++ .ofString " diagnostics")
  return r

/-- Builds a file unless the work has been cancelled before. -/
def fileUnlessCancelled (request : BuildRequest) (current : Option Nat) :
    Traced (Option BuildResult) := do
  if ← (Program.isCancelled : Program Bool) then return none
  return some (← file request current)

/-- Builds files one after another, as long as the work is not cancelled. -/
def all (requests : List BuildRequest) : Traced (List (Option BuildResult)) := do
  if requests.isEmpty then return []
  let place ← beginUnder none .build
    (.concat [.ofString "build ", .ofNat requests.length, .ofString " files"])
  let results ← requests.mapM (fileUnlessCancelled · (some place))
  end_ place []
  return results

/-- Whether a file was not reached or not finished because the work was cancelled. -/
def wasCancelled (results : List (Option BuildResult)) : Bool :=
  results.any fun result => result.all fun r => r.error.any (·.isCancelled)

/-- The progress events of a build in which files follow one another: all are queued first. -/
def events (requests : List BuildRequest) (results : List (Option BuildResult)) : List Progress :=
  requests.map (fun r => { file := r.path, stage := .assemble, status := .queued }) ++
    results.flatMap fun r => (r.map (·.events)).getD []

end Build

end CatalystAsm
