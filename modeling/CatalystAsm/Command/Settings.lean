import CatalystAsm.Build.File
import CatalystAsm.Command.Problem
import CatalystAsm.Path

/-!
# What is to be assembled

The manifest and the flags together tell which files are assembled, how, and where the binaries go.
Flags come before the manifest, and files that are named come before its sources.
-/

namespace CatalystAsm.Command

/-- What the command that assembles works with. -/
structure Settings where
  files : List Bytes
  /-- the directory of the binaries; beside the sources when empty -/
  outputDir : Bytes := []
  /-- the only binary; named after the source when empty -/
  output : Bytes := []
  /-- the dump of the only model; none when empty -/
  model : Bytes := []
  options : Options := {}
  deriving Repr, Inhabited

namespace Settings

/-- The files: those that are named, or the sources of the manifest with its output directory. -/
def ofSources (manifest : Option Manifest.Loaded) (arguments : List Bytes) :
    Except Problem Settings :=
  let options := (manifest.map (·.config.options)).getD {}
  if !arguments.isEmpty then .ok { files := arguments, options }
  else match manifest with
    | none => .error .noSources
    | some m =>
      if m.sources.isEmpty then .error (.emptySources m.path)
      else .ok { files := m.sources, outputDir := m.outputDir, options }

/-- The device that the flags ask for: by its name, or the first one of an architecture. -/
def device (given : Given) (initial : Device) : Except Problem Device :=
  let device := given.text "gpu"
  let architecture := given.text "arch"
  if !device.isEmpty && !architecture.isEmpty then .error .deviceAndArchitecture
  else if !device.isEmpty then
    match Device.ofName? device with
    | some d => .ok d
    | none => .error (.unknownDevice device)
  else if !architecture.isEmpty then
    match Architecture.ofName? architecture with
    | some a => .ok a.lowestDevice
    | none => .error (.unknownArchitecture architecture)
  else .ok initial

/-- The options of the manifest with those of the flags. -/
def withFlags (given : Given) (o : Options) : Except Problem Options := do
  let device ← device given o.device
  return { o with
    device
    is64 := if given.has "64bit" then given.switch "64bit" else o.is64
    exportSymbols :=
      if given.has "force-symbols" then given.switch "force-symbols" else o.exportSymbols
    driverVersion :=
      if given.has "driver-version" then given.word "driver-version" else o.driverVersion }

/-- The settings of a manifest and flags. -/
def ofGiven (manifest : Option Manifest.Loaded) (given : Given) : Except Problem Settings := do
  let s ← ofSources manifest given.arguments
  let options ← withFlags given s.options
  let s := { s with options, output := given.text "output", model := given.text "emit-model" }
  if 1 < s.files.length && !(s.output.isEmpty && s.model.isEmpty) then throw .oneSourceOnly
  return s

/-- What is to be built in the working directory `cwd`, one request for each file. -/
def requests (s : Settings) (cwd : Bytes) (maxDiagnostics : Int) : List BuildRequest :=
  (BuildPath.displayAll cwd cwd s.files).map fun path =>
    { path, options := s.options
      output := if s.output.isEmpty then BuildPath.output path s.outputDir else s.output
      model := s.model, maxDiagnostics }

end Settings

end CatalystAsm.Command
