import CatalystAsm.Build.Traced
import CatalystAsm.Command.Problem

/-!
# Traces of a command

The flags tell what a trace records and where it goes: to the error channel while the command runs,
or to a file. The events in memory are shown when the command fails.
-/

namespace CatalystAsm.Command

/-- A log that begins, and where it is written. -/
structure Tracing where
  log : Trace.Log := {}
  /-- the file; without one, the log goes to the error channel -/
  file : Option Bytes := none

namespace Tracing

/-- The trace that the flags ask for. An output without a level records phases. -/
def config (given : Given) : Except Problem Trace.Config := do
  let path := given.text "trace"
  let level ← (Trace.Level.ofName (given.text "trace-level" "off")).mapError (.trace "level")
  let level := if level = .off && !path.isEmpty then .phase else level
  if level = .off then return {}
  let mode ← (Trace.Mode.ofName (given.text "trace-mode" "stream")).mapError (.trace "mode")
  let format ← (Trace.Format.ofName (given.text "trace-format" "auto")).mapError (.trace "format")
  return { level, mode, format, path, ringSize := given.integer "trace-ring-size" 4096 }

/-- Begins the trace that the flags ask for; a file is emptied. -/
def start (given : Given) : Action Tracing := do
  let config ← config given
  let log := (Trace.Log.ofConfig config).toOption.getD {}
  if log.stream.isNone || config.path.isEmpty || config.path == .ofString "-" then return { log }
  match ← (Program.write config.path [] : Program _) with
  | .error fault => throw (.traceOutput fault)
  | .ok () => return { log, file := some config.path }

/-- Shows what was recorded so far on the error channel, unless it goes to a file. -/
def show_ (t : Tracing) : Traced Unit := do
  if t.file.isNone then
    (Program.print (← get).output .err : Program Unit)
    modify (·.flushed)

/-- Shows the events in memory. -/
def dump : Traced Unit := do
  if let some lines := (← get).dump? .text then
    (Program.print (.ofString "trace: last events before failure:\n" ++ lines) .err : Program Unit)

/-- Ends the trace with what was recorded. -/
def finish (t : Tracing) (log : Trace.Log) : Program Unit := do
  if let some path := t.file then let _ ← Program.write path log.output

end Tracing

end CatalystAsm.Command
