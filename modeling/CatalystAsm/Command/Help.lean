import CatalystAsm.Command.Menu
import CatalystAsm.Text.Character

/-!
# Help

The texts that tell how the program and its commands are called. A text begins with what the command
does, and goes on with its usage: the ways to call it, its commands and its flags.
-/

namespace CatalystAsm.Command

/-- The flags in the order of their names. -/
def inNameOrder (flags : List Flag) : List Flag :=
  flags.mergeSort fun f g => Bytes.atMost (.ofString f.name) (.ofString g.name)

namespace Flag

/-- What stands for the value of the flag. -/
def placeholder (f : Flag) : String :=
  match f.kind with
  | .text => " string"
  | .switch => ""
  | .integer => " int"
  | .word => " uint32"
  | .duration => " duration"

/-- The column of the flag in a list of flags. -/
def column (f : Flag) : Bytes :=
  .concat [match f.letter with
    | some c => .concat [.ofString "  -", [Bytes.char c], .ofString ", --"]
    | none => .ofString "      --",
    .ofString f.name, .ofString f.placeholder]

/-- The value when the flag is not given, unless it is empty, off or zero. -/
def shownInitial (f : Flag) : Bytes :=
  if f.initial ∈ ["", "false", "0", "0s"] then []
  else .concat [.ofString " (default ",
    if f.kind == .text then Text.quoted (.ofString f.initial) else .ofString f.initial,
    .ofString ")"]

/-- The lines that describe flags, their descriptions one below the other. -/
def describe (flags : List Flag) : Bytes :=
  let sorted := inNameOrder flags
  let width := (sorted.map (·.column.length)).foldl max 0
  .intercalate [0x0a] (sorted.map fun f =>
    .concat [Bytes.padRight (width + 3) 0x20 f.column, .ofString f.usage, f.shownInitial])

end Flag

/-- The line of a command in a list of commands. -/
def listLine (name short : String) : Bytes :=
  .concat [.ofString "\n  ", Bytes.padRight 11 0x20 (.ofString name), .ofString " ",
    .ofString short]

/-- A headed list of flags. -/
def flagSection (title : String) (flags : List Flag) : Bytes :=
  .concat [.ofString "\n\n", .ofString title, .ofString ":\n", Flag.describe flags]

/-- The usage of the program, with these flags. -/
def programUsage (flags : List Flag) : Bytes :=
  .concat [.ofString "Usage:\n  ", .ofString program, .ofString " [command]",
    .ofString "\n\nAvailable Commands:", commands.flatMap fun (_, e) => listLine e.name e.short,
    flagSection "Flags" flags, .ofString "\n\nUse \"", .ofString program,
    .ofString " [command] --help\" for more information about a command.\n"]

namespace Entry

/-- The flags that belong to the command. -/
def ownFlags (e : Entry) : List Flag := helpFlag e.name :: e.flags

/-- How the command is called: unless its operands say where flags go, they come last. -/
def useLine (e : Entry) : String :=
  let operands := if e.operands = "" then "" else " " ++ e.operands
  e.path ++ operands ++ if e.operands.startsWith "[flags]" then "" else " [flags]"

/-- The usage of the command. -/
def usage (e : Entry) : Bytes :=
  .concat [.ofString "Usage:\n  ", .ofString e.useLine, flagSection "Flags" e.ownFlags,
    flagSection "Global Flags" globalFlags, .ofString "\n"]

/-- The help for the command. -/
def help (e : Entry) : Bytes :=
  .concat [.ofString (if e.long = "" then e.short else e.long), .ofString "\n\n", e.usage]

end Entry

/-- The help for the program. -/
def programHelp : Bytes :=
  .concat [.ofString "clrxasm assembles GCN kernels written in CLRX syntax into the\n",
    .ofString "AMD Catalyst (CAL) OpenCL binary format.\n\n",
    programUsage (helpFlag program :: versionFlag :: globalFlags)]

end CatalystAsm.Command
