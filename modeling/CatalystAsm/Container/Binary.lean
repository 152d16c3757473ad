import CatalystAsm.Container.DriverInfo
import CatalystAsm.Container.KernelImage
import CatalystAsm.Container.Metadata
import CatalystAsm.Container.Note

/-!
# The binary

The whole binary is an ELF image whose sections hold the section names, the strings, the symbols,
the read-only data with the metadata and header of each kernel, the kernel images, the driver
information and the extra sections.
-/

namespace CatalystAsm

namespace Model

/-- The names of the fixed sections, as they stand at the start of the section names. -/
def imageSectionNames : Bytes :=
  .ofString "\x00.shstrtab\x00.strtab\x00.symtab\x00.rodata\x00.text\x00.comment\x00"

/-- The index of the section of read-only data. -/
def rodataIndex : Nat := 4

/-- The index of the section of kernel images. -/
def textIndex : Nat := 5

/-- The index of the section that a tag means in a binary with `extras` extra sections; global data
is part of the read-only data. -/
def sectionIndex? (extras : Nat) (tag : SectionTag) : Option Nat :=
  if tag = .null then some Elf.indexUndefined
  else if tag = .absolute then some Elf.indexAbsolute
  else if tag = .sectionNames then some 1
  else if tag = .strings then some 2
  else if tag = .symbols then some 3
  else if tag = .rodata ∨ tag = .data then some rodataIndex
  else if tag = .text then some textIndex
  else if tag = .comment then some 6
  else if tag.id.toNat < extras then some (7 + tag.id.toNat)
  else none

/-- Refuses models that no binary can be made of: too much user data in a configured kernel, or a
configured kernel for a device that metadata cannot name. -/
def validate (m : Model) : Except ImageError Unit :=
  match m.kernelList.find? fun k => k.useConfig && maxUserData < k.config.userDataList.length with
  | some k => .error (.tooManyUserData k.name k.config.userDataList.length)
  | none =>
    if m.kernelList.any (·.useConfig) && Device.mullins.id < m.device.id then
      .error (.unsupportedDevice m.device)
    else .ok ()

/-- The driver information and the driver version of the binary. -/
def driver (m : Model) : Bytes × UInt32 := DriverInfo.resolve m.driverInfo m.driverVersion

/-- The notes of a kernel. -/
def notesOf (m : Model) (k : Kernel) : List CalNote :=
  if k.useConfig then k.config.calNotes (.ofVersion m.driver.2) else k.notes.getD []

/-- A kernel that is ready to be placed: its metadata, its header and the plan of its image. -/
structure KernelPart where
  name : Bytes
  metadata : Bytes
  header : Bytes
  notes : Nat
  plan : Plan

/-- The parts of kernel number `i`. -/
def kernelPart (m : Model) (i : Nat) (k : Kernel) : Except ImageError KernelPart := do
  let notes := m.notesOf k
  let image ← k.image m.device.id.toUInt32 notes
  .ok {
    name := k.name
    metadata := k.metadataBytes m.device m.is64 (firstUniqueId + UInt32.ofNat i)
    header := k.headerBytes
    notes := notes.length
    plan := image.plan }

/-- The name of a symbol of a kernel. -/
def symbolName (k : Kernel) (what : String) : Bytes :=
  .ofString "__OpenCL_" ++ k.name ++ .ofString what

/-- The names of the symbols of a kernel. -/
def kernelNames (k : Kernel) : List Bytes :=
  [symbolName k "_metadata", symbolName k "_kernel", symbolName k "_header"]

/-- The name of the symbol of the compile options. -/
def optionsName : Bytes := .ofString "__OpenCL_compile_options"

/-- The names of the symbols of the compile options and of the kernels. -/
def localNames (kernels : List Kernel) : List Bytes := optionsName :: kernels.flatMap kernelNames

/-- The names of all symbols. -/
def symbolNames (m : Model) : List Bytes := localNames m.kernelList ++ m.symbolList.map (·.name)

/-- The symbols of kernels, without names, for the offsets where their read-only data and their
images start. -/
def kernelSymbols (rodata text : Nat) : List KernelPart → List Elf.SymbolEntry
  | [] => []
  | p :: rest =>
    [{ value := UInt64.ofNat rodata, size := UInt64.ofNat p.metadata.length
       info := Elf.symbolInfo Elf.bindLocal Elf.kindObject, index := rodataIndex },
      { value := UInt64.ofNat text, size := UInt64.ofNat p.plan.size
        info := Elf.symbolInfo Elf.bindLocal Elf.kindFunction, index := textIndex },
      { value := UInt64.ofNat (rodata + p.metadata.length), size := UInt64.ofNat headerSize
        info := Elf.symbolInfo Elf.bindLocal Elf.kindObject, index := rodataIndex }] ++
    kernelSymbols (rodata + p.metadata.length + headerSize) (text + p.plan.size) rest

/-- The read-only data before that of the kernels. -/
def rodataStart (m : Model) : Bytes := m.compileOptions ++ m.globalData.getD []

/-- The symbols that every binary has, without names: the compile options and the kernels. -/
def localSymbols (m : Model) (parts : List KernelPart) : List Elf.SymbolEntry :=
  { size := UInt64.ofNat m.compileOptions.length
    info := Elf.symbolInfo Elf.bindLocal Elf.kindObject, index := rodataIndex } ::
  kernelSymbols m.rodataStart.length 0 parts

/-- The symbol table entries of the extra symbols of the binary. -/
def symbolEntries (m : Model) : Except ImageError (List Elf.SymbolEntry) :=
  Elf.extraSymbols (sectionIndex? m.sectionList.length) (fun s => .symbol s.name)
    (1 + Elf.namesLength (localNames m.kernelList)) m.symbolList

/-- An extra section of the binary. -/
def imageSection (m : Model) (s : ExtraSection) (name : UInt32) :
    Except ImageError Elf.Section :=
  Elf.extraSection (sectionIndex? m.sectionList.length) (.section s.name) s name

/-- The read-only data. -/
def rodata (m : Model) (parts : List KernelPart) : Bytes :=
  m.rodataStart ++ parts.flatMap fun p => p.metadata ++ p.header

/-- The kernel images one after another. -/
def writeImages : List KernelPart → Except ImageError Bytes
  | [] => .ok []
  | p :: rest => do
    let b ← p.plan.write
    let c ← writeImages rest
    .ok (b ++ c)

/-- The piece of the kernel images. -/
def imagesPiece (parts : List KernelPart) : Piece :=
  ⟨(parts.map (·.plan.size)).foldr (· + ·) 0, fun _ => writeImages parts⟩

/-- The header of the symbol table, of which the first `locals` entries are local. -/
def symbolsHeader (is64 : Bool) (locals : UInt32) : Elf.SectionHeader where
  name := 19
  type := Elf.typeSymbols
  link := 2
  info := locals
  align := if is64 then 8 else 4
  entrySize := UInt64.ofNat (Elf.symbolLength is64)

/-- The image of the binary, for the parts of its kernels, its symbols and its extra sections. -/
def imageWith (m : Model) (parts : List KernelPart) (symbols : List Elf.SymbolEntry)
    (extras : List Elf.Section) : Elf.Image where
  wide := m.is64
  osabi := if m.is64 then 0x65 else 0x64
  machine := if m.is64 then 62 else 3
  programs := 0
  front := []
  sections := [
    ⟨.plain 1 Elf.typeStrings 0,
      .ofBytes (Elf.stringTable imageSectionNames (m.sectionList.map (·.name)))⟩,
    ⟨.plain 11 Elf.typeStrings 0, .ofBytes (Elf.stringTable [0] m.symbolNames)⟩,
    ⟨symbolsHeader m.is64 (UInt32.ofNat ((m.localSymbols parts).length + 1)),
      Elf.symbolTable m.is64 ({} :: symbols)⟩,
    ⟨.plain 27 Elf.typeProgBits Elf.flagAlloc, .ofBytes (m.rodata parts)⟩,
    ⟨.plain 35 Elf.typeProgBits (Elf.flagAlloc ||| Elf.flagExec), imagesPiece parts⟩,
    ⟨.plain 41 Elf.typeProgBits 0, .ofBytes m.driver.1⟩] ++ extras

/-- The parts of a kernel, and the offsets of the names of its symbols, which are put into the
strings after `start` bytes. -/
def placeKernel (m : Model) (start i : Nat) (k : Kernel) :
    Except ImageError (KernelPart × List UInt32) := do
  let part ← m.kernelPart i k
  let names ← Elf.nameOffsets start (kernelNames k)
  .ok (part, names)

/-- The parts of kernels and the offsets of their names, kernel by kernel. -/
def placeKernels (m : Model) (start : Nat) :
    List (Kernel × Nat) → Except ImageError (List (KernelPart × List UInt32))
  | [] => .ok []
  | (k, i) :: rest => do
    let placed ← m.placeKernel start i k
    let more ← m.placeKernels (start + Elf.namesLength (kernelNames k)) rest
    .ok (placed :: more)

/-- The parts of the kernels before the first one that cannot be placed. -/
def reachedParts (m : Model) (start : Nat) : List (Kernel × Nat) → List KernelPart
  | [] => []
  | (k, i) :: rest =>
    match m.placeKernel start i k with
    | .ok placed =>
      placed.1 :: m.reachedParts (start + Elf.namesLength (kernelNames k)) rest
    | .error _ => []

/-- The offsets of the names that are put into their tables before those of the kernels: of the
extra sections and of the compile options. -/
def firstOffsets (m : Model) : Except ImageError (List UInt32 × List UInt32) := do
  let sections ← Elf.nameOffsets imageSectionNames.length (m.sectionList.map (·.name))
  let options ← Elf.nameOffsets 1 [optionsName]
  .ok (sections, options)

/-- Where the names of the kernels start in the strings. -/
def kernelStart : Nat := 1 + Elf.namesLength [optionsName]

/-- The parts of the kernels and the image of the binary that is made of them. What cannot be had is
met in the order of the binary: the names of the extra sections, one kernel after another, the extra
symbols, and the links of the extra sections. -/
def image (m : Model) : Except ImageError (List KernelPart × Elf.Image) := do
  let (sectionNames, optionsOffset) ← m.firstOffsets
  let placed ← m.placeKernels kernelStart m.kernelList.zipIdx
  let extraSymbols ← m.symbolEntries
  let extras ← (m.sectionList.zip sectionNames).mapM fun (s, name) => m.imageSection s name
  let parts := placed.map (·.1)
  let names := optionsOffset ++ placed.flatMap (·.2)
  let symbols := Elf.named (m.localSymbols parts) names ++ extraSymbols
  .ok (parts, m.imageWith parts symbols extras)

/-- The kernels that a plan gets to, in order. -/
def planned (m : Model) : List KernelPart :=
  match m.validate, m.firstOffsets with
  | .ok _, .ok _ => m.reachedParts kernelStart m.kernelList.zipIdx
  | _, _ => []

/-- The plan of the binary. -/
def plan (m : Model) : Except ImageError Plan := do
  m.validate
  let (_, image) ← m.image
  .ok image.plan

/-- The size of the binary. It is zero when the model is refused, and there is none when a name does
not fit its string table. -/
def size (m : Model) : Except ImageError Nat :=
  match m.plan with
  | .ok p => .ok p.size
  | .error e => if e.isOverflow then .error e else .ok 0

/-- The binary. -/
def generate (m : Model) : Except ImageError Bytes := do
  let plan ← m.plan
  let b ← plan.write
  if b.length ≠ plan.size then .error (.wrongTotal b.length plan.size) else .ok b

end Model

/-- Refuses a missing model and models that no binary can be made of. -/
def validate? (m : Option Model) : Except ImageError Unit :=
  match m with
  | none => .error .noModel
  | some m => m.validate

/-- The plan of the binary of a model that may be missing. -/
def plan? (m : Option Model) : Except ImageError Plan :=
  match m with
  | none => .error .noModel
  | some m => m.plan

/-- The binary of a model that may be missing. -/
def generate? (m : Option Model) : Except ImageError Bytes :=
  match m with
  | none => .error .noModel
  | some m => m.generate

/-- The size of the binary of a model that may be missing. -/
def size? (m : Option Model) : Except ImageError Nat :=
  match m with
  | none => .ok 0
  | some m => m.size

end CatalystAsm
