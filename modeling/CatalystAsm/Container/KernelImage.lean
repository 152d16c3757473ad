import CatalystAsm.Container.Elf

/-!
# The image of a kernel

Each kernel is a narrow ELF image of its own: three program headers, the encoding entry, the notes
without gaps, and sections for names, code, data, symbols, strings and the kernel's extra sections.
-/

namespace CatalystAsm

namespace Kernel

/-- The names of the fixed sections, as they stand at the start of the section names. -/
def imageSectionNames : Bytes :=
  .ofString "\x00.shstrtab\x00.text\x00.data\x00.symtab\x00.strtab\x00\x00"

/-- The index of the section that a tag means in a kernel image with `extras` extra sections. -/
def sectionIndex? (extras : Nat) (tag : SectionTag) : Option Nat :=
  if tag = .null then some Elf.indexUndefined
  else if tag = .absolute then some Elf.indexAbsolute
  else if tag = .sectionNames then some 1
  else if tag = .text then some 2
  else if tag = .data then some 3
  else if tag = .symbols then some 4
  else if tag = .strings then some 5
  else if tag.id.toNat < extras then some (6 + tag.id.toNat)
  else none

end Kernel

namespace CalNote

/-- The size of a note in an image. -/
def recordSize (n : CalNote) : Nat := 20 + (n.data.getD []).length

/-- A note as it stands in an image: the length of the owner, the length of the data, the type, the
owner and the data. -/
def record (n : CalNote) : Except ImageError Bytes := do
  let data := n.data.getD []
  let size ← word32 .noteSize data.length
  .ok (.ofUInt32 8 ++ .ofUInt32 size ++ .ofUInt32 n.type.id ++ n.owner.toList ++ data)

end CalNote

namespace Kernel

/-- The bytes of a program header. -/
def programHeader (type : UInt32) (off fileSize memorySize : Nat) : Except ImageError Bytes := do
  let off ← word32 .programHeader off
  let fileSize ← word32 .programHeader fileSize
  let memorySize ← word32 .programHeader memorySize
  .ok (.ofUInt32 type ++ .ofUInt32 off ++ .ofUInt32 0 ++ .ofUInt32 0 ++ .ofUInt32 fileSize ++
    .ofUInt32 memorySize ++ .ofUInt32 0 ++ .ofUInt32 0)

/-- The number of the piece of the encoding entry. -/
def encodingPiece : Nat := 2

/-- The number of the piece of the first note. -/
def firstNotePiece : Nat := 3

/-- The program headers of a kernel image with `notes` notes: the encoding entry, the notes, and
code and data together. -/
def programHeaders (notes : Nat) (places : Placement) : Except ImageError Bytes := do
  let names := firstNotePiece + notes
  let load := places.offset (names + 1)
  let loadSize := places.offset (names + 3) - load
  let noteStart := places.offset firstNotePiece
  let encoding ← programHeader 0x70000002 (places.offset encodingPiece) 16 0
  let noteHeader ← programHeader 4 noteStart (places.offset names - noteStart) 0
  let loadHeader ← programHeader 1 load loadSize loadSize
  .ok (encoding ++ noteHeader ++ loadHeader)

/-- The encoding entry: the device, the kind of encoding, and the extent of everything from the
first note on. -/
def encodingEntry (device : UInt32) (places : Placement) : Except ImageError Bytes := do
  let start ← word32 .encoding (places.offset firstNotePiece)
  let size ← word32 .encoding (places.total - places.offset firstNotePiece)
  .ok (.ofUInt32 device ++ .ofUInt32 4 ++ .ofUInt32 start ++ .ofUInt32 size)

/-- The symbol table entries of the extra symbols of a kernel image. -/
def symbolEntries (k : Kernel) : Except ImageError (List Elf.SymbolEntry) :=
  Elf.extraSymbols (sectionIndex? k.sectionList.length) (fun s => .kernelSymbol k.name s.name) 2
    k.symbolList

/-- An extra section of a kernel image. -/
def imageSection (k : Kernel) (s : ExtraSection) (name : UInt32) :
    Except ImageError Elf.Section :=
  Elf.extraSection (sectionIndex? k.sectionList.length) (.kernelSection k.name s.name) s name

/-- The piece of the data section. -/
def dataPiece (k : Kernel) : Piece := .ofBytes k.dataBytes

/-- The image of a kernel, for its notes, its symbols and its extra sections. -/
def imageWith (k : Kernel) (device : UInt32) (notes : List CalNote)
    (symbols : List Elf.SymbolEntry) (extras : List Elf.Section) : Elf.Image where
  wide := false
  osabi := 0
  machine := 0
  programs := 3
  front := [⟨96, programHeaders notes.length⟩, ⟨16, encodingEntry device⟩] ++
    notes.map fun n => ⟨n.recordSize, fun _ => n.record⟩
  sections := [
    ⟨.plain 1 Elf.typeStrings 0,
      .ofBytes (Elf.stringTable imageSectionNames (k.sectionList.map (·.name)))⟩,
    ⟨.plain 11 Elf.typeProgBits (Elf.flagAlloc ||| Elf.flagExec), .ofBytes k.codeBytes⟩,
    ⟨.plain 17 Elf.typeProgBits (Elf.flagAlloc ||| Elf.flagWrite), k.dataPiece⟩,
    ⟨{ name := 23, type := Elf.typeSymbols, link := 5, info := 1, align := 4, entrySize := 16 },
      Elf.symbolTable false ({} :: symbols)⟩,
    ⟨.plain 31 Elf.typeStrings 0,
      .ofBytes (Elf.stringTable [0, 0] (k.symbolList.map (·.name)))⟩] ++ extras

/-- The image of a kernel with the given notes. -/
def image (k : Kernel) (device : UInt32) (notes : List CalNote) : Except ImageError Elf.Image := do
  let sectionNameOffsets ← Elf.nameOffsets imageSectionNames.length (k.sectionList.map (·.name))
  let symbols ← k.symbolEntries
  let extras ← (k.sectionList.zip sectionNameOffsets).mapM fun (s, name) => k.imageSection s name
  .ok (k.imageWith device notes symbols extras)

end Kernel

end CatalystAsm
