import CatalystAsm.Container.Plan

/-!
# ELF images

An ELF image is a header, pieces of its own kind, the bodies of its sections and the section header
table, in this order and without gaps. Numbers are little-endian. The first section header is the
empty one, and section 1 holds the section names.
-/

namespace CatalystAsm.Elf

/-! ## Constants of the format -/

def typeProgBits : UInt32 := 1

def typeSymbols : UInt32 := 2

def typeStrings : UInt32 := 3

def flagWrite : UInt32 := 1

def flagAlloc : UInt32 := 2

def flagExec : UInt32 := 4

/-- The section index of symbols without a section. -/
def indexUndefined : Nat := 0

/-- The section index of absolute symbols. -/
def indexAbsolute : Nat := 0xfff1

def bindLocal : UInt8 := 0

def bindGlobal : UInt8 := 1

def bindWeak : UInt8 := 2

def kindObject : UInt8 := 1

def kindFunction : UInt8 := 2

/-- The binding and the kind of a symbol in one byte. -/
def symbolInfo (bind kind : UInt8) : UInt8 := bind <<< 4 ||| (kind &&& 0x0f)

/-- The binding of a symbol. -/
def bindOf (info : UInt8) : UInt8 := info >>> 4

/-! ## Entries -/

/-- A section header without the place of its body. -/
structure SectionHeader where
  name : UInt32 := 0
  type : UInt32 := 0
  flags : UInt32 := 0
  link : UInt32 := 0
  info : UInt32 := 0
  align : UInt64 := 0
  entrySize : UInt64 := 0
  deriving DecidableEq, Repr

/-- The header of a section that needs no alignment and has no entries. -/
def SectionHeader.plain (name type flags : UInt32) : SectionHeader :=
  { name, type, flags, align := 1 }

/-- An entry of a symbol table. -/
structure SymbolEntry where
  name : UInt32 := 0
  value : UInt64 := 0
  size : UInt64 := 0
  info : UInt8 := 0
  other : UInt8 := 0
  index : Nat := 0
  deriving DecidableEq, Repr

/-- The size of the header. -/
def headerLength (wide : Bool) : Nat := if wide then 64 else 52

/-- The size of a section header. -/
def sectionHeaderLength (wide : Bool) : Nat := if wide then 64 else 40

/-- The size of a symbol. -/
def symbolLength (wide : Bool) : Nat := if wide then 24 else 16

/-- The bytes of a symbol; a narrow table keeps the low 32 bits of value and size. -/
def SymbolEntry.bytes (wide : Bool) (s : SymbolEntry) : Bytes :=
  if wide then
    .ofUInt32 s.name ++ [s.info, s.other] ++ .ofUInt16 (UInt16.ofNat s.index) ++
      .ofUInt64 s.value ++ .ofUInt64 s.size
  else
    .ofUInt32 s.name ++ .ofUInt32 s.value.toUInt32 ++ .ofUInt32 s.size.toUInt32 ++
      [s.info, s.other] ++ .ofUInt16 (UInt16.ofNat s.index)

/-- The bytes of a section header with the place of its body. -/
def SectionHeader.bytes (wide : Bool) (s : SectionHeader) (off size : Nat) :
    Except ImageError Bytes :=
  if wide then
    .ok <| .ofUInt32 s.name ++ .ofUInt32 s.type ++ .ofUInt64 s.flags.toUInt64 ++ .ofUInt64 0 ++
      .littleEndian 8 off ++ .littleEndian 8 size ++ .ofUInt32 s.link ++ .ofUInt32 s.info ++
      .ofUInt64 s.align ++ .ofUInt64 s.entrySize
  else do
    let off ← word32 .sectionOffset off
    let size ← word32 .sectionSize size
    let align ← word32 .sectionAlignment s.align.toNat
    let entrySize ← word32 .sectionEntrySize s.entrySize.toNat
    .ok <| .ofUInt32 s.name ++ .ofUInt32 s.type ++ .ofUInt32 s.flags ++ .ofUInt32 0 ++
      .ofUInt32 off ++ .ofUInt32 size ++ .ofUInt32 s.link ++ .ofUInt32 s.info ++
      .ofUInt32 align ++ .ofUInt32 entrySize

/-! ## Images -/

/-- A section: its header and its body. -/
structure Section where
  header : SectionHeader
  body : Piece

/-- What an ELF image is made of. -/
structure Image where
  /-- whether words have 64 bits -/
  wide : Bool
  osabi : UInt8
  machine : UInt16
  /-- the number of program headers right after the header -/
  programs : Nat
  /-- the pieces between the header and the section bodies -/
  front : List Piece
  /-- the sections from number 1 on -/
  sections : List Section

namespace Image

/-- The number of the piece that holds the body of the `i`-th section of the list. -/
def bodyPiece (im : Image) (i : Nat) : Nat := 1 + im.front.length + i

/-- The number of the piece that holds the section header table. -/
def tablePiece (im : Image) : Nat := im.bodyPiece im.sections.length

/-- The bytes that identify the format. -/
def ident (im : Image) : Bytes :=
  [0x7f, 0x45, 0x4c, 0x46, if im.wide then 2 else 1, 1, 1, im.osabi, 0, 0, 0, 0, 0, 0, 0, 0]

/-- The bytes of the header, for the offset of the section header table. -/
def headerBytes (im : Image) (tableOffset : Nat) : Except ImageError Bytes := do
  let sectionCount ← word16 .sectionCount (im.sections.length + 1)
  let programCount ← word16 .programCount im.programs
  let start := im.ident ++ .ofUInt16 2 ++ .ofUInt16 im.machine ++ .ofUInt32 1
  let programOffset := if im.programs = 0 then 0 else headerLength im.wide
  if im.wide then
    .ok <| start ++ .ofUInt64 0 ++ .littleEndian 8 programOffset ++ .littleEndian 8 tableOffset ++
      .ofUInt32 0 ++ .ofUInt16 64 ++ .ofUInt16 56 ++ .ofUInt16 programCount ++ .ofUInt16 64 ++
      .ofUInt16 sectionCount ++ .ofUInt16 1
  else do
    let tableOffset ← word32 .sectionTableOffset tableOffset
    .ok <| start ++ .ofUInt32 0 ++ .littleEndian 4 programOffset ++ .ofUInt32 tableOffset ++
      .ofUInt32 0 ++ .ofUInt16 52 ++ .ofUInt16 32 ++ .ofUInt16 programCount ++ .ofUInt16 40 ++
      .ofUInt16 sectionCount ++ .ofUInt16 1

/-- The bytes of the headers of sections whose bodies are pieces number `piece` and on. -/
def tableFrom (wide : Bool) (places : Placement) (piece : Nat) :
    List Section → Except ImageError Bytes
  | [] => .ok []
  | s :: rest => do
    let b ← s.header.bytes wide (places.offset piece) s.body.size
    let c ← tableFrom wide places (piece + 1) rest
    .ok (b ++ c)

/-- The bytes of the section header table. -/
def tableBytes (im : Image) (places : Placement) : Except ImageError Bytes := do
  let null ← ({} : SectionHeader).bytes im.wide 0 0
  let rest ← tableFrom im.wide places (im.bodyPiece 0) im.sections
  .ok (null ++ rest)

/-- The plan of the image. -/
def plan (im : Image) : Plan :=
  ⟨[⟨headerLength im.wide, fun places => im.headerBytes (places.offset im.tablePiece)⟩] ++
    im.front ++ im.sections.map (·.body) ++
    [⟨(im.sections.length + 1) * sectionHeaderLength im.wide, im.tableBytes⟩]⟩

end Image

/-- Symbols with the offsets of their names. -/
def named (symbols : List SymbolEntry) (names : List UInt32) : List SymbolEntry :=
  (symbols.zip names).map fun e => { e.1 with name := e.2 }

/-- The piece of a symbol table. -/
def symbolTable (wide : Bool) (symbols : List SymbolEntry) : Piece :=
  ⟨symbols.length * symbolLength wide, fun _ => .ok (symbols.flatMap (·.bytes wide))⟩

/-! ## String tables -/

/-- The offsets of names that are put into a string table after `start` bytes, each with a zero
byte behind it. -/
def nameOffsets (start : Nat) : List Bytes → Except ImageError (List UInt32)
  | [] => .ok []
  | name :: rest => do
    let off ← word32 .stringTable start
    let offs ← nameOffsets (start + name.length + 1) rest
    .ok (off :: offs)

/-- What names take in a string table, each with a zero byte behind it. -/
def namesLength (names : List Bytes) : Nat := (names.map (·.length + 1)).foldr (· + ·) 0

/-- The bytes of a string table: its fixed start and the names. -/
def stringTable (start : Bytes) (names : List Bytes) : Bytes :=
  start ++ names.flatMap (· ++ [0])

/-! ## Extra symbols and sections

An image has symbols and sections that are copied into it as they are. They name other sections by
tags, of which `indexOf` gives the section index, if the image has such a section; `use` says what
names the tag.
-/

/-- The index of the section that an extra symbol belongs to. -/
def homeIndex (indexOf : SectionTag → Option Nat) (use : TagUse) (s : ExtraSymbol) :
    Except ImageError Nat :=
  match indexOf s.home with
  | none => .error (.unmapped use s.home)
  | some index => .ok index

/-- The symbol table entries of extra symbols, whose names are put into a string table after `start`
bytes. The section of a symbol is looked up before its name is put there. -/
def extraSymbols (indexOf : SectionTag → Option Nat) (use : ExtraSymbol → TagUse) (start : Nat) :
    List ExtraSymbol → Except ImageError (List SymbolEntry)
  | [] => .ok []
  | s :: rest => do
    let index ← homeIndex indexOf (use s) s
    let name ← word32 .stringTable start
    let more ← extraSymbols indexOf use (start + s.name.length + 1) rest
    .ok ({ name, value := s.value, size := s.size, info := s.info, other := s.other, index } ::
      more)

/-- The index of the section that an extra section is linked to. -/
def linkIndex (indexOf : SectionTag → Option Nat) (use : TagUse) (s : ExtraSection) :
    Except ImageError UInt32 :=
  if s.link = .unmapped then .ok 0
  else match indexOf s.link with
    | none => .error (.unmapped use s.link)
    | some index => .ok (UInt32.ofNat index)

/-- An extra section of an image. -/
def extraSection (indexOf : SectionTag → Option Nat) (use : TagUse) (s : ExtraSection)
    (name : UInt32) : Except ImageError Section := do
  let link ← linkIndex indexOf use s
  let header : SectionHeader := {
    name, link
    type := s.type
    flags := s.flags.toUInt32
    info := s.info
    align := s.align
    entrySize := s.entrySize }
  .ok ⟨header, .ofBytes (s.data.getD [])⟩

end CatalystAsm.Elf
