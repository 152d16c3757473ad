import CatalystAsm.Command.Menu
import CatalystAsm.Container.ElfFile
import CatalystAsm.Dump.Model
import CatalystAsm.Gpu
import CatalystAsm.Manifest.File

/-!
# Why a command fails
-/

namespace CatalystAsm.Command

/-- Why a command fails. -/
inductive Problem where
  | flags (fault : FlagFault)
  /-- a word that is no command below `path`, and the commands that may be meant -/
  | unknownCommand (word : Bytes) (path : String) (likely : List String)
  | argumentCount (arity : Arity) (received : Nat)
  | unknownFormat (text : Bytes) (choices : String)
  /-- a flag with another value than `auto`, `on` and `off` -/
  | unknownChoice (flag : String) (text : Bytes)
  | trace (what : String) (complaint : Bytes)
  | traceOutput (fault : Host.Failure)
  | manifest (problem : Manifest.FileProblem)
  /-- neither arguments nor a manifest name a source -/
  | noSources
  | emptySources (path : Bytes)
  | deviceAndArchitecture
  | unknownDevice (name : Bytes)
  | unknownArchitecture (name : Bytes)
  | oneSourceOnly
  | cancelled
  | failedFiles (failed total : Nat)
  | file (fault : Host.Failure)
  | notDirectory (path : Bytes)
  | noDirectory (path : Bytes) (fault : Host.Failure)
  | noSample (path : Bytes) (fault : Host.Failure)
  | unreadableBinary (path : Bytes) (fault : Host.Failure)
  | noBinary (path : Bytes) (fault : ElfFile.Fault)
  | noSymbols (fault : ElfFile.Fault)
  | noKernel (name : Bytes) (fault : ElfFile.Fault)
  | kernelOutside (name : Bytes)
  | unreadableDump (fault : Host.Failure)
  | noModel (error : Dump.Error)

namespace Problem

/-- What is said about a wrong number of arguments. -/
def countMessage (received : Nat) : Arity → Bytes
  | .exactly n =>
    .concat [.ofString "accepts ", .ofNat n, .ofString " arg(s), received ", .ofNat received]
  | .atMost n =>
    .concat [.ofString "accepts at most ", .ofNat n, .ofString " arg(s), received ",
      .ofNat received]
  | .any | .none => []

/-- What is said about commands that may be meant. -/
def likelyMessage (likely : List String) : Bytes :=
  if likely.isEmpty then []
  else .ofString "\n\nDid you mean this?\n" ++ likely.flatMap fun name =>
    Bytes.concat [[0x09], .ofString name, [0x0a]]

/-- The wording of a problem. -/
def message : Problem → Bytes
  | .flags fault => fault.message
  | .unknownCommand word path likely =>
    .concat [.ofString "unknown command ", Text.quoted word, .ofString " for ",
      Text.quoted (.ofString path), likelyMessage likely]
  | .argumentCount arity received => countMessage received arity
  | .unknownFormat text choices =>
    .concat [.ofString "unsupported format ", Text.quoted text, .ofString " (must be ",
      .ofString choices, .ofString ")"]
  | .unknownChoice flag text =>
    .concat [.ofString "invalid --", .ofString flag, .ofString " value ", Text.quoted text,
      .ofString " (expected auto|on|off)"]
  | .trace what complaint =>
    .concat [.ofString "invalid trace ", .ofString what, .ofString ": ", complaint]
  | .traceOutput fault =>
    .ofString "failed to create tracer: failed to open trace output: " ++ fault.message
  | .manifest problem => problem.message
  | .noSources =>
    .ofString ("no input files and no clrxasm.toml found\n" ++
      "please specify the sources explicitly, e.g.:\n  clrxasm asm kernels.s")
  | .emptySources path => path ++ .ofString ": [build].sources is empty"
  | .deviceAndArchitecture => .ofString "--gpu and --arch are mutually exclusive"
  | .unknownDevice name => .concat [unknownDeviceMessage, .ofString ": ", name]
  | .unknownArchitecture name => .concat [unknownArchitectureMessage, .ofString ": ", name]
  | .oneSourceOnly => .ofString "--output and --emit-model need a single input file"
  | .cancelled => Host.cancelledMessage
  | .failedFiles failed total =>
    .concat [.ofNat failed, .ofString " of ", .ofNat total, .ofString " files failed to assemble"]
  | .file fault => fault.message
  | .notDirectory path => Text.quoted path ++ .ofString " is not a directory"
  | .noDirectory path fault =>
    .concat [.ofString "failed to create directory ", Text.quoted path, .ofString ": ",
      fault.message]
  | .noSample path fault =>
    .concat [.ofString "failed to write ", path, .ofString ": ", fault.message]
  | .unreadableBinary path fault => .concat [path, .ofString ": ", fault.message]
  | .noBinary path fault => .concat [path, .ofString ": ", fault.message]
  | .noSymbols fault => .ofString "symbols: " ++ fault.message
  | .noKernel name fault => .concat [.ofString "kernel ", name, .ofString ": ", fault.message]
  | .kernelOutside name =>
    .concat [.ofString "kernel ", name, .ofString ": inner binary out of section bounds"]
  | .unreadableDump fault => .concat [Dump.Error.undecodable.message, .ofString ": ", fault.message]
  | .noModel error => error.message

end Problem

/-- What a command does: it ends well, or with a problem. -/
abbrev Action := ExceptT Problem Program

/-- A setting that is on or off, or left to the host. -/
inductive Choice where
  | auto | on | off
  deriving DecidableEq, Repr, Inhabited

/-- The choice that a text in lower case stands for; nothing leaves it to the host. -/
def Choice.ofLower? (low : Bytes) : Option Choice :=
  if low == .ofString "auto" || low.isEmpty then some .auto
  else if low == .ofString "on" then some .on
  else if low == .ofString "off" then some .off
  else none

/-- Whether output on a channel has color. -/
def wantsColor (given : Given) (channel : Host.Channel) : Action Bool := do
  let text := given.text "color" "auto"
  match Choice.ofLower? (Text.lower text) with
  | some .auto => Program.isTerminal channel
  | some choice => return choice = .on
  | none => throw (.unknownChoice "color" text)

end CatalystAsm.Command
