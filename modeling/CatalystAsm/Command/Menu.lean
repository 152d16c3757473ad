import CatalystAsm.Command.Flag

/-!
# Commands and their help

The commands of the program with their flags, how the command of a list of arguments is found, and
the help texts.
-/

namespace CatalystAsm.Command

/-- The commands. -/
inductive Name where
  | asm | devices | help | init | inspect | version
  deriving DecidableEq, Repr, Inhabited

/-- How many plain arguments a command takes. -/
inductive Arity where
  | any | none | exactly (n : Nat) | atMost (n : Nat)
  deriving DecidableEq, Repr

/-- How a command is called and described. -/
structure Entry where
  name : String
  /-- what follows the name in the usage line -/
  operands : String := ""
  short : String
  long : String := ""
  flags : List Flag := []
  arity : Arity := .any
  deriving Repr, Inhabited

/-- The name of the program. -/
def program : String := "clrxasm"

/-- The command with the program in front. -/
def Entry.path (e : Entry) : String := program ++ " " ++ e.name

/-- The flags of all commands. -/
def globalFlags : List Flag := [
  { name := "color", initial := "auto", usage := "colorize output (auto|on|off)" },
  { name := "max-diagnostics", kind := .integer, initial := "100",
    usage := "maximum number of diagnostics to show" },
  { name := "quiet", kind := .switch, initial := "false",
    usage := "suppress non-essential output" },
  { name := "timings", kind := .switch, initial := "false", usage := "show timing information" },
  { name := "trace", usage := "write trace events to file (- for stderr)" },
  { name := "trace-format", initial := "auto", usage := "trace output format (auto|text|ndjson)" },
  { name := "trace-heartbeat", kind := .duration, initial := "0s",
    usage := "emit heartbeat events at this interval (0 disables)" },
  { name := "trace-level", initial := "off",
    usage := "trace level (off|error|phase|detail|debug)" },
  { name := "trace-mode", initial := "stream", usage := "trace storage mode (stream|ring|both)" },
  { name := "trace-ring-size", kind := .integer, initial := "4096",
    usage := "ring buffer capacity for --trace-mode ring|both" }]

/-- The flag that asks for help. -/
def helpFlag (name : String) : Flag :=
  { name := "help", letter := some 'h', kind := .switch, initial := "false",
    usage := "help for " ++ name }

/-- The flag of the program that asks for its version. -/
def versionFlag : Flag :=
  { name := "version", letter := some 'v', kind := .switch, initial := "false",
    usage := "version for " ++ program }

/-- The flags of the command that assembles. -/
def asmFlags : List Flag := [
  { name := "64bit", kind := .switch, initial := "false", usage := "generate a 64-bit binary" },
  { name := "arch", letter := some 'A', usage := "GPU architecture (gcn1.0|gcn1.1|gcn1.2|gcn1.4)" },
  { name := "driver-version", kind := .word, initial := "0",
    usage := "driver version (0: from driver info)" },
  { name := "emit-model",
    usage := "write a msgpack dump of the output model (single input only)" },
  { name := "force-symbols", letter := some 'S', kind := .switch, initial := "false",
    usage := "export all global symbols into the binary" },
  { name := "format", initial := "pretty", usage := "diagnostics format (pretty|json|short)" },
  { name := "gpu", letter := some 'g', usage := "GPU device name" },
  { name := "jobs", kind := .integer, initial := "0",
    usage := "max parallel files" },
  { name := "output", letter := some 'o', usage := "output binary path (single input only)" },
  { name := "ui", initial := "auto", usage := "progress UI (auto|on|off)" }]

/-- The commands in alphabetical order. -/
def commands : List (Name × Entry) := [
  (.asm,
    { name := "asm", operands := "[flags] files..."
      short := "Assemble sources into AMD Catalyst binaries"
      long := "Assemble each source file into an AMD Catalyst OpenCL binary.\n" ++
        "Without files, the sources listed in [build].sources of the nearest\n" ++
        "clrxasm.toml are assembled. Flags override the manifest."
      flags := asmFlags }),
  (.devices,
    { name := "devices", short := "List supported GPU devices and their architectures"
      flags := [{ name := "format", initial := "pretty", usage := "output format (pretty|json)" }]
      arity := .none }),
  (.help,
    { name := "help", operands := "[command]", short := "Help about any command"
      long := "Help provides help for any command in the application.\n" ++
        "Simply type clrxasm help [path to command] for full details." }),
  (.init,
    { name := "init", operands := "[dir]", short := "Initialize a new clrxasm project"
      long := "Initialize a clrxasm project by creating a manifest (clrxasm.toml) and a\n" ++
        "sample kernel source (src/kernels.s). If [dir] is omitted, the current\n" ++
        "directory is used; a missing directory is created."
      arity := .atMost 1 }),
  (.inspect,
    { name := "inspect", operands := "file"
      short := "List sections, symbols and kernels of a binary or model dump"
      long := "Inspect a binary produced by 'clrxasm asm': outer ELF sections and\n" ++
        "symbols, then the sections of every kernel's inner ELF. With --model the\n" ++
        "file is read as a msgpack model dump (asm --emit-model) instead."
      flags := [{ name := "model", kind := .switch, initial := "false",
                  usage := "read a msgpack model dump" }]
      arity := .exactly 1 }),
  (.version,
    { name := "version", short := "Show clrxasm build information"
      flags := [
        { name := "date", kind := .switch, initial := "false", usage := "include build timestamp" },
        { name := "format", initial := "pretty", usage := "output format (pretty|json)" },
        { name := "full", kind := .switch, initial := "false",
          usage := "show all recorded build metadata" },
        { name := "hash", kind := .switch, initial := "false", usage := "include git commit hash" }]
      arity := .none })]

end CatalystAsm.Command
