import CatalystAsm.Command.Assemble
import CatalystAsm.Command.Help
import CatalystAsm.Command.Init
import CatalystAsm.Command.Inspect
import CatalystAsm.Command.Listing
import CatalystAsm.Command.Select

/-!
# The command line

The program as a whole: it finds the command that its arguments name, runs it, and ends with zero
or, after a message about a problem, with one.
-/

namespace CatalystAsm.Command

/-- Shows the help for the command that words name, or for the program. -/
def showHelp (words : List Bytes) : Program Unit :=
  match select words with
  | .ok (some (_, e), _) => Program.print e.help
  | .ok (none, _) => Program.print programHelp
  | .error _ =>
    Program.print (.concat [.ofString "Unknown help topic ", Bytes.intercalate [0x20]
      (words.map Text.quoted), [0x0a], programUsage globalFlags]) .err

/-- Runs a command with its flags and arguments. -/
def Name.run (given : Given) : Name → Action Unit
  | .asm => Assemble.run given
  | .devices => Devices.run given
  | .help => showHelp given.arguments
  | .init => Init.run given
  | .inspect => Inspect.run given
  | .version => Version.run given

/-- Runs the program without a command. -/
def runAlone (arguments : List Bytes) : Action Unit := do
  let flags := helpFlag program :: versionFlag :: globalFlags
  let given ← (Given.ofArguments flags arguments).mapError Problem.flags
  if given.switch "version" && !given.switch "help" then
    Program.print (.concat [.ofString program, .ofString " version ", CatalystAsm.Version.current,
      [0x0a]])
  else Program.print programHelp

/-- Runs a command with its arguments. -/
def runCommand (name : Name) (e : Entry) (arguments : List Bytes) : Action Unit := do
  let given ← (Given.ofArguments (e.ownFlags ++ globalFlags) arguments).mapError Problem.flags
  if given.switch "help" then Program.print e.help
  else
    e.check given.arguments
    name.run given

/-- Runs the program with its arguments and gives its exit code. -/
def run (arguments : List Bytes) : Program Nat := do
  let complain (problem : Problem) (advice : Bytes) : Program Nat := do
    Program.print (.concat [.ofString "Error: ", problem.message, [0x0a], advice]) .err
    return 1
  match select arguments with
  | .error problem => complain problem (.ofString "Run 'clrxasm --help' for usage.\n")
  | .ok (selected, rest) =>
    let action := match selected with
      | none => runAlone rest
      | some (name, e) => runCommand name e rest
    match ← action.run with
    | .ok () => return 0
    | .error problem => complain problem []

end CatalystAsm.Command
