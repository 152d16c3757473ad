import CatalystAsm.Host.Program
import CatalystAsm.Manifest.Config

/-!
# Manifest files

Finding the manifest of a directory, and writing that of a new project.
-/

namespace CatalystAsm.Manifest

open Host

/-- The name of a manifest file. -/
def fileName : Bytes := .ofString "clrxasm.toml"

/-- Why there is no manifest to work with. -/
inductive FileProblem where
  /-- no directory up to the root has a manifest -/
  | notFound
  | status (path : Bytes) (fault : Host.Failure)
  | unreadable (path : Bytes) (fault : Host.Failure)
  | content (path : Bytes) (problem : Problem)
  | alreadyThere (path : Bytes)
  | unwritable (fault : Host.Failure)
  | other (fault : Host.Failure)
  deriving DecidableEq, Repr, Inhabited

/-- The wording of a problem. -/
def FileProblem.message : FileProblem → Bytes
  | .notFound => fileName ++ .ofString " not found"
  | .status path fault =>
    .concat [.ofString "failed to stat ", Text.quoted path, .ofString ": ", fault.message]
  | .unreadable path fault =>
    .concat [path, .ofString ": failed to parse TOML: ", fault.message]
  | .content path problem => problem.message path
  | .alreadyThere path =>
    .concat [.ofString "project already initialized: ", path, .ofString " exists"]
  | .unwritable fault => .ofString "failed to write manifest: " ++ fault.message
  | .other fault => fault.message

/-- The path of the first manifest in `directory` and the ones above it, at most `fuel` of them. -/
def findFrom : Nat → Bytes → Program (Except FileProblem Bytes)
  | 0, _ => return .error .notFound
  | fuel + 1, directory => do
    let candidate := Path.join [directory, fileName]
    match ← Program.status candidate with
    | .ok .file => return .ok candidate
    | .error fault =>
      if fault.reason = .missing then above fuel directory
      else return .error (.status candidate fault)
    | .ok .directory => above fuel directory
where
  /-- Goes on with the directory above, unless this is the root. -/
  above (fuel : Nat) (directory : Bytes) : Program (Except FileProblem Bytes) :=
    let parent := Path.directory directory
    if parent == directory then return .error .notFound else findFrom fuel parent

/-- The path of the manifest nearest to `start`, or to the working directory when `start` is
empty. -/
def find (start : Bytes) : Program (Except FileProblem Bytes) := do
  let directory := Path.absolute (← Program.workingDirectory)
    (if start.isEmpty then Path.here else start)
  findFrom (directory.length + 1) directory

/-- A manifest and where it is. -/
structure Loaded where
  path : Bytes
  config : Config
  deriving Repr, Inhabited

namespace Loaded

/-- The directory of the manifest. -/
def root (m : Loaded) : Bytes := Path.directory m.path

/-- The source files. -/
def sources (m : Loaded) : List Bytes := m.config.sourcesIn m.root

/-- The directory of the binaries. -/
def outputDir (m : Loaded) : Bytes := m.config.outputDirIn m.root

end Loaded

/-- Reads the manifest at a path. -/
def readFile (path : Bytes) : Program (Except FileProblem Loaded) := do
  match ← Program.read path with
  | .error fault => return .error (.unreadable path fault)
  | .ok text =>
    match Config.ofText text with
    | .error problem => return .error (.content path problem)
    | .ok config => return .ok ⟨path, config⟩

/-- Reads the manifest nearest to `start`; there may be none. -/
def load (start : Bytes) : Program (Except FileProblem (Option Loaded)) := do
  match ← find start with
  | .error .notFound => return .ok none
  | .error problem => return .error problem
  | .ok path => return (← readFile path).map some

/-- Writes a manifest. -/
def writeFile (path : Bytes) (c : Config) : Program (Except FileProblem Unit) := do
  match ← Program.replaceFile ".clrxasm-toml-" path c.text with
  | .ok () => return .ok ()
  | .error fault =>
    return .error (if fault.operation = "rename" then .other fault else .unwritable fault)

/-- Writes the manifest of a new project and gives its path. -/
def create (directory name : Bytes) : Program (Except FileProblem Bytes) := do
  let path := Path.join [directory, fileName]
  match ← Program.status path with
  | .ok _ => return .error (.alreadyThere path)
  | .error _ => return (← writeFile path (.ofName name)).map fun _ => path

end CatalystAsm.Manifest
