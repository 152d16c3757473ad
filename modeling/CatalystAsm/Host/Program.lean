import CatalystAsm.Host.Failure
import CatalystAsm.Path
import CatalystAsm.Time

/-!
# Programs

A program asks its host for files, for the time and for output, and goes on with the answers. The
program itself is plain data: what it does to files is told by the host that answers it.
-/

namespace CatalystAsm

namespace Host

/-- What a path leads to. -/
inductive Kind where
  | file | directory
  deriving DecidableEq, Repr, Inhabited

/-- Where output goes. -/
inductive Channel where
  | out | err
  deriving DecidableEq, Repr, Inhabited

/-- A question to the host. -/
inductive Request where
  /-- the content of a file -/
  | read (path : Bytes)
  /-- what a path leads to -/
  | status (path : Bytes)
  /-- a new directory -/
  | makeDirectory (path : Bytes)
  /-- a file with a content, in place of one that may be there -/
  | write (path content : Bytes)
  /-- a file with a content under a new name: a directory, the start of the name and a text that
  the host chooses -/
  | writeNew (directory stem content : Bytes)
  /-- a new name for a file, in place of one that may have it -/
  | rename (old new : Bytes)
  /-- the end of a file -/
  | remove (path : Bytes)
  /-- the working directory -/
  | workingDirectory
  /-- the time -/
  | now
  /-- text for the user -/
  | print (channel : Channel) (text : Bytes)
  /-- whether output goes to a terminal -/
  | isTerminal (channel : Channel)
  /-- whether the work has been cancelled by now -/
  | isCancelled

/-- The type of the answer to a question. -/
def Request.Answer : Request → Type
  | .read _ => Except Failure Bytes
  | .status _ => Except Failure Kind
  | .makeDirectory _ => Except Failure Unit
  | .write _ _ => Except Failure Unit
  | .writeNew _ _ _ => Except Failure Bytes
  | .rename _ _ => Except Failure Unit
  | .remove _ => Unit
  | .workingDirectory => Bytes
  | .now => Instant
  | .print _ _ => Unit
  | .isTerminal _ => Bool
  | .isCancelled => Bool

/-- What is said about work that was cancelled. -/
def cancelledMessage : Bytes := .ofString "context canceled"

/-- The path of a new file: a directory, the start of the name and the rest of it. -/
def newPath (directory stem suffix : Bytes) : Bytes :=
  let separator := if directory.getLast? == some Path.slash then [] else [Path.slash]
  directory ++ separator ++ stem ++ suffix

end Host

open Host

/-- A program with a result of type `α`. -/
inductive Program (α : Type) where
  | done (result : α)
  | ask (request : Request) (next : request.Answer → Program α)

namespace Program

/-- One program after the other. -/
def bind {α β : Type} : Program α → (α → Program β) → Program β
  | .done a, f => f a
  | .ask request next, f => .ask request fun answer => (next answer).bind f

instance : Monad Program where
  pure := .done
  bind := bind

/-- A question and its answer. -/
def request (r : Request) : Program r.Answer := .ask r .done

/-- The content of a file. -/
def read (path : Bytes) : Program (Except Failure Bytes) := request (.read path)

/-- What a path leads to. -/
def status (path : Bytes) : Program (Except Failure Kind) := request (.status path)

/-- The time. -/
def now : Program Instant := request .now

/-- The working directory. -/
def workingDirectory : Program Bytes := request .workingDirectory

/-- Text for the user. -/
def print (text : Bytes) (channel : Channel := .out) : Program Unit := request (.print channel text)

/-- Whether output goes to a terminal. -/
def isTerminal (channel : Channel) : Program Bool := request (.isTerminal channel)

/-- Whether the work has been cancelled by now. -/
def isCancelled : Program Bool := request .isCancelled

/-- A file with a content, in place of one that may be there. -/
def write (path content : Bytes) : Program (Except Failure Unit) := request (.write path content)

/-- The path up to the last element, with the slash before it. -/
def above (path : Bytes) : Bytes :=
  ((path.reverse.dropWhile (· == Path.slash)).dropWhile (· != Path.slash)).reverse

/-- The path above is shorter, so that going up ends. -/
theorem length_above {path : Bytes} (h : above path ≠ []) : (above path).length < path.length := by
  have shrinks (p : UInt8 → Bool) (b : Bytes) : (b.dropWhile p).length ≤ b.length :=
    (List.dropWhile_sublist p).length_le
  have nonempty : path.reverse ≠ [] := by
    intro e
    simp [above, e] at h
  obtain ⟨c, rest, e⟩ := List.exists_cons_of_ne_nil nonempty
  have size : path.length = rest.length + 1 := by rw [← List.length_reverse, e]; rfl
  rw [above, e, List.length_reverse, size, List.dropWhile_cons]
  split
  · exact Nat.lt_succ_of_le (Nat.le_trans (shrinks _ _) (shrinks _ _))
  · rename_i other
    rw [List.dropWhile_cons_of_pos (by simpa using other)]
    exact Nat.lt_succ_of_le (shrinks _ _)

/-- Makes sure that a directory is there, with all directories above it. -/
def makeDirectories (path : Bytes) : Program (Except Failure Unit) := do
  match ← status path with
  | .ok .directory => return .ok ()
  | .ok .file => return .error ⟨"mkdir", [path], .notDirectory⟩
  | .error _ =>
    match ← if above path = [] then pure (.ok ()) else makeDirectories (above path) with
    | .error fault => return .error fault
    | .ok () =>
      match ← request (.makeDirectory path) with
      | .ok () => return .ok ()
      | .error fault =>
        match ← status path with
        | .ok .directory => return .ok ()
        | _ => return .error fault
termination_by path.length
decreasing_by exact length_above (by assumption)

/-- Puts a file with a content in the place of `path` in one step: the content is written under a
new name beside it, which begins with `stem`, and then renamed. -/
def replaceFile (stem : String) (path content : Bytes) : Program (Except Failure Unit) := do
  match ← request (.writeNew (Path.directory path) (.ofString stem) content) with
  | .error fault => return .error fault
  | .ok name =>
    match ← request (.rename name path) with
    | .ok () => return .ok ()
    | .error fault =>
      request (.remove name)
      return .error fault

end Program

end CatalystAsm
