import CatalystAsm.Command.Problem
import CatalystAsm.Text.Json
import CatalystAsm.Text.Style
import CatalystAsm.Text.Width

/-!
# What the program knows

The commands that list the devices and show the version.
-/

namespace CatalystAsm.Version

/-- The version of this program. -/
def current : Bytes := .ofString "0.1.0-dev"

/-- The three numbers of a version of the form `x.y.z`, and what follows the first hyphen. -/
def parts? (version : Bytes) : Option (Bytes × Bytes × Bytes × Bytes) :=
  let core := version.takeWhile (· != Bytes.char '-')
  match core.splitOn (Bytes.char '.') with
  | [x, y, z] => some (x, y, z, (version.drop core.length).tail)
  | _ => none

/-- The version with its three numbers in colours. A version of another form stays as it is. -/
def styled (version : Bytes) (color : Bool) : Bytes :=
  match parts? version with
  | none => version
  | some (x, y, z, rest) =>
    .concat [Style.apply [.yellow, .bold] color x, .ofString ".",
      Style.apply [.green, .bold] color y, .ofString ".", Style.apply [.blue, .bold] color z,
      if rest.isEmpty then [] else Bytes.char '-' :: rest]

end CatalystAsm.Version

namespace CatalystAsm.Command

/-- The form of a listing. -/
inductive ListingFormat where
  | pretty | json
  deriving DecidableEq, Repr, Inhabited

/-- The form that the flags ask for. -/
def ListingFormat.ofGiven (given : Given) : Except Problem ListingFormat :=
  let text := given.text "format" "pretty"
  let low := Text.lower text
  if low == .ofString "pretty" then .ok .pretty
  else if low == .ofString "json" then .ok .json
  else .error (.unknownFormat text "pretty or json")

/-! ## Devices -/

namespace Devices

/-- The table of all devices. -/
def table : Bytes :=
  let title := Bytes.ofString "DEVICE"
  let width := (Device.all.map fun d => Text.width (.ofString d.name)).foldl max (Text.width title)
  let row (name architecture id : Bytes) : Bytes :=
    .concat [Text.fillRight width name, .ofString "  ", Text.fillRight 6 architecture,
      .ofString "  ", id, [0x0a]]
  row title (.ofString "ARCH") (.ofString "ID") ++ Device.all.flatMap fun d =>
    row (.ofString d.name) (.ofString d.architecture.name) (.ofNat d.id.toNat)

/-- The document of all devices. -/
def document : Bytes :=
  Json.document (.list (Device.all.map fun d => .object [
    Json.textField "name" (.ofString d.name),
    Json.textField "architecture" (.ofString d.architecture.name),
    Json.natField "id" d.id.toNat]))

/-- Lists the devices. -/
def run (given : Given) : Action Unit := do
  match ← ListingFormat.ofGiven given with
  | .json => Program.print document
  | .pretty =>
    let _ ← wantsColor given .out
    Program.print table

end Devices

/-! ## Version -/

namespace Version

/-- What is shown in place of something that is not known. -/
def unknown : Bytes := .ofString "unknown"

/-- Shows the version. The commit and the time of the build are not recorded. -/
def run (given : Given) : Action Unit := do
  let commit := given.switch "hash" || given.switch "full"
  let date := given.switch "date" || given.switch "full"
  match ← ListingFormat.ofGiven given with
  | .json =>
    Program.print (Json.document (.object (
      [Json.textField "tool" (.ofString program),
        Json.textField "version" CatalystAsm.Version.current] ++
      (if commit then [Json.textField "git_commit" unknown] else []) ++
      (if date then [Json.textField "build_date" unknown] else []))))
  | .pretty =>
    let color ← wantsColor given .out
    Program.print (.concat [.ofString program, .ofString " ",
      CatalystAsm.Version.styled CatalystAsm.Version.current color, [0x0a],
      if commit then .concat [.ofString "commit: ", unknown, [0x0a]] else [],
      if date then .concat [.ofString "built:  ", unknown, [0x0a]] else []])

end Version

end CatalystAsm.Command
