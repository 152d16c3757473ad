import CatalystAsm.Command.Run
import Std.Time.DateTime.Timestamp

/-!
# The program on a real host

Answers the questions of the program with the files, the clock and the channels of the system.
-/

namespace CatalystAsm.Host.Live

/-- The reason behind an error of the system. -/
def reason : IO.Error → Reason
  | .noFileOrDirectory .. => .missing
  | .alreadyExists .. => .exists
  | .permissionDenied .. => .denied
  | .inappropriateType _ code _ => if code = 20 then .notDirectory else .isDirectory
  | .invalidArgument _ code details =>
    if code = 36 then .tooLong else if code = 22 then .invalid else .other (.ofString details)
  | e => .other (.ofString e.toString)

/-- The path as the system takes it. -/
def path (b : Bytes) : IO String :=
  match Bytes.toString? b with
  | some text => pure text
  | none => throw (.invalidArgument none 22 "invalid argument")

/-- Runs an operation and puts its paths on a fault. -/
def attempt {α : Type} (operation : String) (paths : List Bytes) (action : IO α) :
    IO (Except Failure α) := do
  try return .ok (← action)
  catch e => return .error ⟨operation, paths, reason e⟩

/-- The content of a file. -/
def read (b : Bytes) : IO (Except Failure Bytes) := do
  let result ← attempt "open" [b] do return (← IO.FS.readBinFile (← path b)).toList
  return result.mapError fun fault =>
    if fault.reason = .isDirectory then { fault with operation := "read" } else fault

/-- Writes a file under a new name and gives its path. -/
def writeNew (directory stem content : Bytes) : IO (Except Failure Bytes) := do
  let number ← IO.rand 0 4294967295
  let place := newPath directory stem (.ofNat number)
  attempt "open" [place] do
    let file ← IO.FS.Handle.mk (← path place) .writeNew
    file.write ⟨content.toArray⟩
    return place

/-- The stream of a channel. -/
def stream : Channel → IO IO.FS.Stream
  | .out => IO.getStdout
  | .err => IO.getStderr

/-- The answer to a question. -/
def answer : (r : Request) → IO r.Answer
  | .read b => read b
  | .status b => attempt "stat" [b] do
    let found ← ((← IO.currentDir) / (← path b)).metadata
    return match found.type with
      | .dir => .directory
      | _ => .file
  | .makeDirectory b => attempt "mkdir" [b] do IO.FS.createDir (← path b)
  | .write b content => attempt "open" [b] do IO.FS.writeBinFile (← path b) ⟨content.toArray⟩
  | .writeNew directory stem content => writeNew directory stem content
  | .rename old new => do
    let result ← attempt "rename" [old, new] do IO.FS.rename (← path old) (← path new)
    return result.mapError fun fault =>
      if fault.reason = .isDirectory then { fault with reason := .exists } else fault
  | .remove b => do let _ ← attempt "remove" [b] do IO.FS.removeFile (← path b)
  | .workingDirectory => return .ofString (← IO.currentDir).toString
  | .now => return ⟨(← Std.Time.Timestamp.now).toNanosecondsSinceUnixEpoch.val⟩
  | .print channel text => do
    let out ← stream channel
    out.write ⟨text.toArray⟩
    out.flush
  | .isTerminal channel => do (← stream channel).isTty
  | .isCancelled => IO.checkCanceled

/-- Runs a program on this host. -/
def perform {α : Type} : Program α → IO α
  | .done result => return result
  | .ask request next => do perform (next (← answer request))

end CatalystAsm.Host.Live

/-- Runs the command line. -/
def main (arguments : List String) : IO UInt32 :=
  return UInt32.ofNat
    (← CatalystAsm.Host.Live.perform (CatalystAsm.Command.run (arguments.map .ofString)))
