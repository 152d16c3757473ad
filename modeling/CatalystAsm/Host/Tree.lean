import CatalystAsm.Host.Program

/-!
# Trees of files

A host that is plain data: files and directories by their place, a working directory, and the text
that was printed. There are no symbolic links, so that two dots lead to the directory above. Running
a program against the tree gives the result and the tree afterwards.
-/

namespace CatalystAsm

namespace Host

/-- The place of a file or directory: the names from the root. -/
abbrev Place := List Bytes

/-- Files and directories. -/
structure Tree where
  /-- files with their content, and directories without one; the root is not listed -/
  entries : List (Place × Option Bytes) := []
  cwd : Place := []
  /-- what ends the names of new files -/
  suffix : Bytes := []
  /-- the time, which stands still -/
  clock : Instant := {}
  /-- what was printed, last text first -/
  printed : List (Channel × Bytes) := []
  /-- whether all work is cancelled from the start -/
  cancelled : Bool := false
  deriving Inhabited

namespace Tree

/-- What is at a place: a file with its content, or a directory. -/
def get? (t : Tree) (place : Place) : Option (Option Bytes) :=
  if place.isEmpty then some none else List.lookup place t.entries

/-- The tree with a file or directory at a place. -/
def put (t : Tree) (place : Place) (content : Option Bytes) : Tree :=
  { t with entries := (place, content) :: t.entries.filter (·.1 != place) }

/-- The tree without what is at a place. -/
def erase (t : Tree) (place : Place) : Tree :=
  { t with entries := t.entries.filter (·.1 != place) }

/-- The longest name that a file can have. -/
def maxName : Nat := 255

/-- The place that names lead to from `place`. All but the last have to be directories. -/
def walk (t : Tree) (place : Place) : List Bytes → Except Reason Place
  | [] => .ok place
  | name :: names =>
    match t.get? place with
    | none => .error .missing
    | some (some _) => .error .notDirectory
    | some none =>
      if name.isEmpty || name == Path.here then t.walk place names
      else if name == Path.up then t.walk place.dropLast names
      else if maxName < name.length then .error .tooLong
      else t.walk (place ++ [name]) names

/-- The place that a path leads to; its directory is there. -/
def find (t : Tree) (path : Bytes) : Except Reason Place :=
  if path.contains 0 then .error .invalid
  else if path.isEmpty then .error .missing
  else t.walk (if Path.isRooted path then [] else t.cwd) (Path.elements path)

/-- The path without slashes at its end. -/
def withoutSlashes (path : Bytes) : Bytes :=
  (path.reverse.dropWhile (· == Path.slash)).reverse

/-- What a path leads to. -/
def look (t : Tree) (path : Bytes) : Except Reason (Place × Option Bytes) := do
  let place ← t.find path
  match t.get? place with
  | none => .error .missing
  | some content => .ok (place, content)

/-- Makes a directory. -/
def makeDirectory (t : Tree) (path : Bytes) : Except Reason Tree := do
  let short := withoutSlashes path
  let place ← t.find (if short.isEmpty then path else short)
  if (t.get? place).isSome then .error .exists else .ok (t.put place none)

/-- Writes a file. -/
def write (t : Tree) (path content : Bytes) : Except Reason Tree := do
  let short := withoutSlashes path
  let place ← t.find (if short.isEmpty then path else short)
  if t.get? place == some none || short != path then .error .isDirectory
  else .ok (t.put place (some content))

/-- Writes a file that was not there. -/
def writeNew (t : Tree) (path content : Bytes) : Except Reason Tree := do
  let place ← t.find path
  if (t.get? place).isSome then .error .exists else .ok (t.put place (some content))

/-- Gives a file a new name. A directory is not replaced. -/
def rename (t : Tree) (old new : Bytes) : Except Reason Tree := do
  let (source, content) ← t.look old
  let place ← t.find new
  if t.get? place == some none then .error .exists
  else .ok ((t.erase source).put place content)

/-- The result of an operation, with the paths that a fault names. -/
def outcome {α : Type} (operation : String) (paths : List Bytes) :
    Except Reason α → Except Failure α
  | .ok a => .ok a
  | .error reason => .error ⟨operation, paths, reason⟩

/-- The tree after a change, if it could be made. -/
def changed (t : Tree) (operation : String) (paths : List Bytes) (change : Except Reason Tree) :
    Except Failure Unit × Tree :=
  match change with
  | .ok t => (.ok (), t)
  | .error reason => (.error ⟨operation, paths, reason⟩, t)

/-- The content of a file. -/
def read (t : Tree) (path : Bytes) : Except Failure Bytes :=
  match t.look path with
  | .error reason => .error ⟨"open", [path], reason⟩
  | .ok (_, none) => .error ⟨"read", [path], .isDirectory⟩
  | .ok (_, some content) => .ok content

/-- The answer to a question, and the tree afterwards. -/
def answer (t : Tree) : (r : Request) → r.Answer × Tree
  | .read path => (t.read path, t)
  | .status path =>
    (outcome "stat" [path] ((t.look path).map fun found =>
      if found.2.isSome then Kind.file else Kind.directory), t)
  | .makeDirectory path => t.changed "mkdir" [path] (t.makeDirectory path)
  | .write path content => t.changed "open" [path] (t.write path content)
  | .writeNew directory stem content =>
    let path := newPath directory stem t.suffix
    match t.writeNew path content with
    | .ok t => (.ok path, t)
    | .error reason => (.error ⟨"open", [path], reason⟩, t)
  | .rename old new => t.changed "rename" [old, new] (t.rename old new)
  | .remove path => ((), ((t.look path).toOption.map fun (place, _) => t.erase place).getD t)
  | .workingDirectory => (Path.slash :: .intercalate [Path.slash] t.cwd, t)
  | .now => (t.clock, t)
  | .print channel text => ((), { t with printed := (channel, text) :: t.printed })
  | .isTerminal _ => (false, t)
  | .isCancelled => (t.cancelled, t)

/-- What was printed on a channel. -/
def printedOn (t : Tree) (channel : Channel) : Bytes :=
  .concat ((t.printed.reverse.filter (·.1 == channel)).map (·.2))

end Tree

end Host

/-- Runs a program against a tree of files. -/
def Program.run {α : Type} : Program α → Host.Tree → α × Host.Tree
  | .done result, t => (result, t)
  | .ask request next, t =>
    let (answer, t) := t.answer request
    (next answer).run t

end CatalystAsm
