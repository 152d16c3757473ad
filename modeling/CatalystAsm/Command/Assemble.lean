import CatalystAsm.Build.View
import CatalystAsm.Command.Report
import CatalystAsm.Command.Settings
import CatalystAsm.Command.Tracing

/-!
# Assembling files

The command that assembles: it takes its settings from flags and manifest, builds the files one
after another and reports about them. It fails when a file fails.
-/

namespace CatalystAsm.Command.Assemble

/-- Whether the progress of a build is shown. Left to the host, it is shown for several files on a
terminal. -/
def wantsView (given : Given) (choice : Choice) (files : Nat) : Program Bool :=
  match choice with
  | .on => return true
  | .off => return false
  | .auto =>
    if given.switch "quiet" || files ≤ 1 then return false else Program.isTerminal .out

/-- How a build looks when it is over. -/
def finalView (requests : List BuildRequest) (results : List (Option BuildResult)) : View :=
  ((Build.events requests results).foldl (fun v p => v.apply p.viewEvent)
    (View.ofFiles (.ofString program) (requests.map (·.path)))).close

/-- A step that can fail, within a command that keeps a log. -/
def step {α : Type} (action : Action α) : ExceptT Problem Traced α :=
  ExceptT.mk (action.run : Program _)

/-- Builds what the flags ask for and reports about it. -/
def build (given : Given) (tracing : Tracing) : ExceptT Problem Traced Unit := do
  let format ← ReportFormat.ofGiven given
  let text := given.text "ui" "auto"
  let some choice := Choice.ofLower? (Text.trim (Text.lower text)) |
    throw (.unknownChoice "ui" text)
  let manifest ← match ← (Manifest.load Path.here : Program _) with
    | .ok manifest => pure manifest
    | .error problem => throw (.manifest problem)
  let settings ← Settings.ofGiven manifest given
  let cwd ← (Program.workingDirectory : Program _)
  let requests := settings.requests cwd (given.integer "max-diagnostics" 100)
  let results ← Build.all requests
  tracing.show_
  if format = .pretty then
    if ← (wantsView given choice requests.length : Program _) then
      (Program.print (finalView requests results).text : Program Unit)
  if Build.wasCancelled results then throw .cancelled
  let built := results.filterMap id
  step (Report.diagnostics given format built)
  for (request, result) in requests.zip built do
    for (channel, text) in Report.outcome given format request.output result do
      (Program.print text channel : Program Unit)
  let failed := built.countP (·.error.isSome)
  if 0 < failed then
    Tracing.dump
    throw (.failedFiles failed results.length)

/-- Assembles files. -/
def run (given : Given) : Action Unit := do
  let tracing ← Tracing.start given
  let (result, log) ← ((build given tracing).run.run tracing.log : Program _)
  (tracing.finish log : Program Unit)
  result

end CatalystAsm.Command.Assemble
