import CatalystAsm.Assembly.State
import CatalystAsm.Path
import CatalystAsm.Text.Character
import CatalystAsm.Text.Printable
import CatalystAsm.Toml.Document

/-!
# Project manifests

A manifest is a TOML document with three tables: the name of the project, the target of the
binaries, and what is built. Names of fields are found without regard to case; which of them were
given is decided by their exact names.
-/

namespace CatalystAsm.Manifest

open Toml

/-- The settings of a project. -/
structure Config where
  name : Bytes := []
  device : Bytes := []
  bits : Int := 0
  driverVersion : UInt32 := 0
  driverInfo : Bytes := []
  /-- the source files, when they are listed -/
  sources : Option (List Bytes) := none
  outputDir : Bytes := []
  exportSymbols : Bool := false
  jobs : Int := 0
  deriving DecidableEq, Repr, Inhabited

/-- Why a text is no manifest. -/
inductive Problem where
  /-- the text is no TOML, or a field has a value of another type -/
  | malformed
  | noPackage
  | noName
  | unknownKey (key : Key)
  | unknownDevice (name : Bytes)
  | wrongBits (bits : Int)
  | negativeJobs
  | emptySource
  deriving DecidableEq, Repr, Inhabited

namespace Problem

/-- The wording of a problem. -/
def text : Problem → Bytes
  | .malformed => .ofString "failed to parse TOML"
  | .noPackage => .ofString "missing [package]"
  | .noName => .ofString "missing [package].name"
  | .unknownKey key => .ofString "unknown key " ++ key.text
  | .unknownDevice name =>
    .concat [.ofString "[target].device ", Text.quoted name, .ofString ": ", unknownDeviceMessage]
  | .wrongBits bits => .ofString "[target].bits must be 32 or 64, got " ++ .ofInt bits
  | .negativeJobs => .ofString "[build].jobs must not be negative"
  | .emptySource => .ofString "[build].sources contains an empty path"

/-- The message about a problem in the manifest at `path`. -/
def message (path : Bytes) (p : Problem) : Bytes := path ++ .ofString ": " ++ p.text

end Problem

/-! ## Fields -/

/-- A code point without regard to case, as far as it is a letter of a field name. -/
def foldCode (code : Nat) : Nat :=
  if 0x41 ≤ code && code ≤ 0x5a then code + 0x20
  else if code = 0x17f then 0x73
  else if code = 0x212a then 0x6b
  else code

/-- A name without regard to case. -/
def foldName (name : Bytes) : List Nat := (Utf8.codePoints name).map foldCode

/-- Whether a key has the name of a field, apart from case. -/
def isNamed (key : Bytes) (field : String) : Bool := foldName key == foldName (.ofString field)

/-- The tables and their fields. -/
def fields : List (String × List String) := [
  ("package", ["name"]),
  ("target", ["device", "bits", "driver_version", "driver_info"]),
  ("build", ["sources", "output_dir", "force_symbols", "jobs"])]

/-- Whether a key names a table or a field. -/
def isKnown : Key → Bool
  | [table] => fields.any fun (name, _) => isNamed table name
  | [table, field] =>
    fields.any fun (name, inner) => isNamed table name && inner.any (isNamed field)
  | _ => false

/-- The text of a string. -/
def textOf? : Node → Option Bytes
  | .text b => some b
  | _ => none

/-- The texts of an array of strings. -/
def textsOf? : Node → Option (List Bytes)
  | .array items => items.mapM textOf?
  | _ => none

/-- The number of an integer. -/
def integerOf? : Node → Option Int
  | .integer n => some n
  | _ => none

/-- The number of an integer that fits 32 bits without sign. -/
def wordOf? (n : Node) : Option UInt32 := do
  let value ← integerOf? n
  if 0 ≤ value && value < UInt32.size then some (UInt32.ofNat value.toNat) else none

/-- The value of a flag. -/
def flagOf? : Node → Option Bool
  | .flag b => some b
  | _ => none

/-- The entries of a table. -/
def entriesOf? : Node → Option Entries
  | .table t => some t
  | _ => none

namespace Config

/-- Takes over a field of a table. Keys of no field are left out. -/
def setField? (c : Config) (table key : Bytes) (value : Node) : Option Config :=
  let is (t f : String) := isNamed table t && isNamed key f
  if is "package" "name" then (textOf? value).map fun v => { c with name := v }
  else if is "target" "device" then (textOf? value).map fun v => { c with device := v }
  else if is "target" "bits" then (integerOf? value).map fun v => { c with bits := v }
  else if is "target" "driver_version" then
    (wordOf? value).map fun v => { c with driverVersion := v }
  else if is "target" "driver_info" then (textOf? value).map fun v => { c with driverInfo := v }
  else if is "build" "sources" then (textsOf? value).map fun v => { c with sources := some v }
  else if is "build" "output_dir" then (textOf? value).map fun v => { c with outputDir := v }
  else if is "build" "force_symbols" then (flagOf? value).map fun v => { c with exportSymbols := v }
  else if is "build" "jobs" then (integerOf? value).map fun v => { c with jobs := v }
  else some c

/-- Takes over a table. -/
def setTable? (c : Config) (key : Bytes) (value : Node) : Option Config :=
  if isKnown [key] then do
    (← entriesOf? value).foldlM (fun c (name, v) => c.setField? key name v) c
  else some c

/-- The settings of a document. -/
def ofEntries? (t : Entries) : Option Config :=
  t.foldlM (fun c (key, value) => c.setTable? key value) {}

/-- Refuses settings that nothing can be built with. -/
def check (c : Config) : Except Problem Unit :=
  if !c.device.isEmpty && (Device.ofName? c.device).isNone then .error (.unknownDevice c.device)
  else if c.bits ≠ 32 && c.bits ≠ 64 then .error (.wrongBits c.bits)
  else if c.jobs < 0 then .error .negativeJobs
  else if (c.sources.getD []).any fun s => (Text.trim s).isEmpty then .error .emptySource
  else .ok ()

/-- The settings of a manifest. A target has 32 bits unless it says otherwise. -/
def ofText (text : Bytes) : Except Problem Config := do
  match Document.ofText? text with
  | none => .error .malformed
  | some d =>
    match ofEntries? d.root with
    | none => .error .malformed
    | some c =>
      let isGiven (key : List String) := Entries.isDefined d.root (key.map .ofString)
      if !isGiven ["package"] then .error .noPackage
      else if !isGiven ["package", "name"] || (Text.trim c.name).isEmpty then .error .noName
      else
        let c := if isGiven ["target", "bits"] then c else { c with bits := 32 }
        match d.keys.find? (!isKnown ·) with
        | some key => .error (.unknownKey key)
        | none =>
          c.check
          return c

/-- What an assembly is asked for. -/
def options (c : Config) : Options where
  is64 := c.bits == 64
  device := (Device.ofName? c.device).getD {}
  driverVersion := c.driverVersion
  driverInfo := c.driverInfo
  exportSymbols := c.exportSymbols

/-- The settings of a new project. -/
def ofName (name : Bytes) : Config where
  name := name
  device := .ofString "capeverde"
  bits := 32
  sources := some [.ofString "src/kernels.s"]
  outputDir := .ofString "build"

/-- A flag as text. -/
def flagText (b : Bool) : Bytes := .ofString (if b then "true" else "false")

/-- The text of a manifest with these settings. -/
def text (c : Config) : Bytes :=
  .concat [.ofString "# clrxasm project manifest\n",
    .intercalate [0x0a] [
      tableText "package" [("name", quoted c.name)],
      tableText "target" [("device", quoted c.device), ("bits", .ofInt c.bits),
        ("driver_version", .ofNat c.driverVersion.toNat), ("driver_info", quoted c.driverInfo)],
      tableText "build" ((c.sources.map fun s => ("sources", quotedList s)).toList ++
        [("output_dir", quoted c.outputDir), ("force_symbols", flagText c.exportSymbols),
          ("jobs", .ofInt c.jobs)])]]

/-- A path of the manifest, seen from its directory. -/
def resolve (root path : Bytes) : Bytes :=
  if Path.isRooted path then path else Path.join [root, path]

/-- The source files, for a manifest in the directory `root`. -/
def sourcesIn (c : Config) (root : Bytes) : List Bytes := (c.sources.getD []).map (resolve root)

/-- The directory of the binaries, or nothing when none is set. -/
def outputDirIn (c : Config) (root : Bytes) : Bytes :=
  if (Text.trim c.outputDir).isEmpty then [] else resolve root c.outputDir

end Config

end CatalystAsm.Manifest
