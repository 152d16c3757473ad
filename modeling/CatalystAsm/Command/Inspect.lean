import CatalystAsm.Command.Problem
import CatalystAsm.Text.Width

/-!
# Looking into binaries

The listing of a binary: its sections and symbols, and the sections of the binaries that its kernel
symbols point to. A dump is listed by its settings and kernels.
-/

namespace CatalystAsm.Command.Inspect

/-- A number with its base. -/
def hex (n : Nat) : Bytes := .ofString "0x" ++ .hexOfNat n

/-- The widest name of a list. -/
def nameWidth (names : List Bytes) : Nat := (names.map Text.width).foldl max 0

/-- The listing of sections. -/
def sections (indent : Bytes) (list : List ElfFile.Section) : Bytes :=
  let width := nameWidth (list.map (·.name))
  .concat [indent, .ofString "sections:\n"] ++ list.zipIdx.flatMap fun (s, i) =>
    Bytes.concat [indent, .ofString "  [", Bytes.padLeft 2 0x20 (.ofNat i), .ofString "] ",
      Text.fillRight width s.name, .ofString " ",
      Bytes.padRight 14 0x20 (ElfFile.named ElfFile.typeNames s.type), .ofString " off=",
      hex s.offset, .ofString " size=", .ofNat s.size, [0x0a]]

/-- The listing of symbols. -/
def symbols (list : List ElfFile.Symbol) : Bytes :=
  let width := nameWidth (list.map (·.name))
  .ofString "symbols:\n" ++ list.flatMap fun s =>
    Bytes.concat [.ofString "  ", Text.fillRight width s.name, .ofString " value=", hex s.value,
      .ofString " size=", .ofNat s.size, .ofString " section=", .ofNat s.home, [0x0a]]

/-- The first line of a listing. -/
def header (f : ElfFile) : Bytes :=
  .concat [.ofString (if f.wide then "ELFCLASS64 " else "ELFCLASS32 "),
    .ofString (if f.highFirst then "ELFDATA2MSB" else "ELFDATA2LSB"), .ofString " machine=",
    .ofNat f.machine, .ofString " osabi=", .ofNat f.osabi, [0x0a]]

/-- The kernel that a symbol belongs to. -/
def kernelOf? (s : ElfFile.Symbol) : Option Bytes :=
  (Bytes.dropStart? (.ofString "__OpenCL_") s.name).bind (Bytes.dropEnd? (.ofString "_kernel"))

/-- The listing of the binary that a kernel symbol points to; other symbols have none. -/
def kernel (f : ElfFile) (s : ElfFile.Symbol) : Except Problem Bytes := do
  let some name := kernelOf? s | return []
  let some home := f.sections[s.home]? | return []
  let data ← (f.body home).mapError (.noKernel name)
  let stop := (s.value + s.size) % UInt64.size
  if data.length < stop then throw (.kernelOutside name)
  let inner ← (ElfFile.ofBytes ((data.take stop).drop s.value)).mapError (.noKernel name)
  return .concat [.ofString "kernel ", name, .ofString " (", .ofNat s.size, .ofString " bytes):\n",
    sections (.ofString "  ") inner.sections]

/-- Prints the listing of a binary, as far as it can be read. -/
def binary (f : ElfFile) : Action Unit := do
  Program.print (header f ++ sections [] f.sections)
  match f.symbols with
  | .error fault => throw (.noSymbols fault)
  | .ok list =>
    Program.print (symbols list)
    for s in list do Program.print (← kernel f s)

/-- The listing of a note. -/
def note (n : CalNote) : Bytes :=
  .concat [.ofString "  ", .ofString n.type.name, .ofString ": ", .ofNat (n.data.getD []).length,
    .ofString " bytes\n"]

/-- The listing of a kernel in a model. -/
def modelKernel (k : Kernel) : Bytes :=
  let size (b : Option Bytes) : Bytes := .ofNat (b.getD []).length
  let word (n : UInt32) : Bytes := .ofNat n.toNat
  let notes := k.notes.getD []
  let work := k.config.workSize
  .concat [.ofString "kernel ", k.name,
    .ofString (if k.useConfig then " [config] code=" else " [calnotes] code="), size k.code,
    .ofString " data=", size k.data,
    if k.useConfig then
      .concat [.ofString " args=", .ofNat k.config.argList.length, .ofString " cws=[", word work.x,
        .ofString " ", word work.y, .ofString " ", word work.z, .ofString "] sgprs=",
        word k.config.sgprs, .ofString " vgprs=", word k.config.vgprs, [0x0a]]
    else
      .concat [.ofString " header=", size k.header, .ofString " metadata=", size k.metadata,
        .ofString " calnotes=", .ofNat notes.length, [0x0a]],
    notes.flatMap note]

/-- The listing of a model. -/
def model (m : Model) : Bytes :=
  let quoted (name : String) (b : Bytes) : Bytes :=
    if b.isEmpty then [] else .concat [.ofString name, .ofString "=", Text.quoted b, [0x0a]]
  .concat [.ofString "device=", .ofString m.device.name, .ofString " arch=",
    .ofString m.device.architecture.name, .ofString (if m.is64 then " bits=64" else " bits=32"),
    .ofString " driver_version=", .ofNat m.driverVersion.toNat, [0x0a],
    quoted "driver_info" m.driverInfo, quoted "compile_options" m.compileOptions,
    .ofString "global_data=", .ofNat (m.globalData.getD []).length,
    .ofString " bytes, extra sections=", .ofNat m.sectionList.length, .ofString ", extra symbols=",
    .ofNat m.symbolList.length, [0x0a], m.kernelList.flatMap modelKernel]

/-- Lists the binary or the dump at a path. -/
def run (given : Given) : Action Unit := do
  let path := given.arguments.headD []
  let content ← (Program.read path : Program _)
  if given.switch "model" then
    match content with
    | .error fault =>
      throw (if fault.operation = "read" then .unreadableDump fault else .file fault)
    | .ok content =>
      match Dump.read content with
      | .error error => throw (.noModel error)
      | .ok m => Program.print (model m)
  else
    match content with
    | .error fault => throw (.unreadableBinary path fault)
    | .ok content =>
      match ElfFile.ofBytes content with
      | .error fault => throw (.noBinary path fault)
      | .ok f => binary f

end CatalystAsm.Command.Inspect
