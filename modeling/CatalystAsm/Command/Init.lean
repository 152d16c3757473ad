import CatalystAsm.Command.Problem

/-!
# New projects

A new project is a directory with a manifest and a sample source.
-/

namespace CatalystAsm.Command.Init

/-- The sample source. -/
def sample : String :=
  "# sample kernel with one global buffer argument\n" ++
  ".kernel fill\n" ++
  "    .config\n" ++
  "    .cws 64\n" ++
  "    .sgprsnum 12\n" ++
  "    .vgprsnum 4\n" ++
  "    .uavid 11\n" ++
  "    .arg out, \"uint*\", pointer, global\n" ++
  "    .text\n" ++
  "    .int 0xbf810000   ; s_endpgm\n"

/-- The name of the project in a directory. -/
def projectName (directory : Bytes) : Bytes :=
  let name := Text.trim (Path.base directory)
  if name.isEmpty || name == Path.here || name == [Path.slash] then .ofString "kernels" else name

/-- Makes sure that the directory of a project is there. -/
def makeProjectDirectory (directory : Bytes) : Action Unit := do
  match ← (Program.status directory : Program _) with
  | .ok .directory => return
  | .ok .file => throw (.notDirectory directory)
  | .error fault =>
    if fault.reason ≠ .missing then throw (.file fault)
    if let .error fault ← (Program.makeDirectories directory : Program _) then
      throw (.noDirectory directory fault)

/-- Writes the sample source unless something is there, and tells whether it was written. -/
def writeSample (directory : Bytes) : Action Bool := do
  let path := Path.join [directory, .ofString "src", .ofString "kernels.s"]
  match ← (Program.status path : Program _) with
  | .ok _ => return false
  | .error fault =>
    if fault.reason ≠ .missing then return false
    if let .error fault ← (Program.makeDirectories (Path.directory path) : Program _) then
      throw (.file fault)
    if let .error fault ← (Program.write path (.ofString sample) : Program _) then
      throw (.noSample path fault)
    return true

/-- Makes a new project. -/
def run (given : Given) : Action Unit := do
  let cwd ← (Program.workingDirectory : Program _)
  let directory := Path.absolute cwd (given.arguments.headD Path.here)
  makeProjectDirectory directory
  if let .error problem ← (Manifest.create directory (projectName directory) : Program _) then
    throw (.manifest problem)
  let created ← writeSample directory
  if !given.switch "quiet" then
    Program.print (.concat [.ofString "Initialized clrxasm project in ",
      (Path.relative? cwd directory).getD directory, .ofString "\n  - ", Manifest.fileName,
      .ofString "\n  - src/kernels.s", .ofString (if created then "\n" else " (existing)\n")])

end CatalystAsm.Command.Init
