import CatalystAsm.Bytes

/-!
# Reading ELF files

The header, the section headers and the symbols of an ELF file of either word size and byte order,
and the reasons for which a file cannot be read.
-/

namespace CatalystAsm

namespace ElfFile

/-! ## Names of the format -/

/-- A number by the name it has, or by the next lower number with a name. -/
def named (names : List (Nat × String)) (n : Nat) : Bytes :=
  match names.lookup n with
  | some name => .ofString name
  | none =>
    match names.reverse.find? (·.1 < n) with
    | some (base, name) => .concat [.ofString name, .ofString "+", .ofNat (n - base)]
    | none => .ofNat n

/-- The names of the word sizes. -/
def classNames : List (Nat × String) := [(0, "ELFCLASSNONE"), (1, "ELFCLASS32"), (2, "ELFCLASS64")]

/-- The names of the byte orders. -/
def dataNames : List (Nat × String) := [(0, "ELFDATANONE"), (1, "ELFDATA2LSB"), (2, "ELFDATA2MSB")]

/-- The names of the versions of the format. -/
def versionNames : List (Nat × String) := [(0, "EV_NONE"), (1, "EV_CURRENT")]

/-- The names of the types of sections. -/
def typeNames : List (Nat × String) := [
  (0, "SHT_NULL"), (1, "SHT_PROGBITS"), (2, "SHT_SYMTAB"), (3, "SHT_STRTAB"), (4, "SHT_RELA"),
  (5, "SHT_HASH"), (6, "SHT_DYNAMIC"), (7, "SHT_NOTE"), (8, "SHT_NOBITS"), (9, "SHT_REL"),
  (10, "SHT_SHLIB"), (11, "SHT_DYNSYM"), (14, "SHT_INIT_ARRAY"), (15, "SHT_FINI_ARRAY"),
  (16, "SHT_PREINIT_ARRAY"), (17, "SHT_GROUP"), (18, "SHT_SYMTAB_SHNDX"), (0x60000000, "SHT_LOOS"),
  (0x6ffffff5, "SHT_GNU_ATTRIBUTES"), (0x6ffffff6, "SHT_GNU_HASH"),
  (0x6ffffff7, "SHT_GNU_LIBLIST"), (0x6ffffffd, "SHT_GNU_VERDEF"),
  (0x6ffffffe, "SHT_GNU_VERNEED"), (0x6fffffff, "SHT_GNU_VERSYM"), (0x70000000, "SHT_LOPROC"),
  (0x70000003, "SHT_RISCV_ATTRIBUTES"), (0x7000002a, "SHT_MIPS_ABIFLAGS"),
  (0x7fffffff, "SHT_HIPROC"), (0x80000000, "SHT_LOUSER"), (0xffffffff, "SHT_HIUSER")]

/-! ## Faults -/

/-- Why a file cannot be read. -/
inductive Fault where
  /-- there is nothing where something was to be read -/
  | ended
  /-- something ends too early -/
  | cutOff
  /-- a value that a file cannot have, and the place of the record that holds it -/
  | format (what : String) (value : Bytes) (place : Nat)
  | other (what : String)
  | symbols (cause : Fault)
  | strings (cause : Fault)
  deriving Repr, Inhabited

/-- The wording of a fault. -/
def Fault.message : Fault → Bytes
  | .ended => .ofString "EOF"
  | .cutOff => .ofString "unexpected EOF"
  | .format what value place =>
    .concat [.ofString what, .ofString " '", value, .ofString "' in record at byte 0x",
      .hexOfNat place]
  | .other what => .ofString what
  | .symbols cause => .ofString "cannot load symbol section: " ++ cause.message
  | .strings cause => .ofString "cannot load string table section: " ++ cause.message

/-! ## Records -/

/-- A section of a file. -/
structure Section where
  name : Bytes := []
  type : Nat
  offset : Nat
  size : Nat
  link : Nat
  deriving Repr, Inhabited

/-- A symbol of a file. -/
structure Symbol where
  name : Bytes
  value : Nat
  size : Nat
  /-- the number of the section -/
  home : Nat
  deriving Repr, Inhabited

end ElfFile

/-- An ELF file. -/
structure ElfFile where
  content : Bytes
  /-- whether words have 64 bits -/
  wide : Bool
  /-- whether the highest byte of a number comes first -/
  highFirst : Bool
  osabi : Nat
  machine : Nat := 0
  sections : List ElfFile.Section := []
  deriving Repr, Inhabited

namespace ElfFile

/-- The bytes of a list at `off`, `n` of them. -/
def bytesAt (b : Bytes) (off n : Nat) : Except Fault Bytes :=
  let found := (b.drop off).take n
  if found.length = n then .ok found else .error .ended

/-- The number of `n` bytes at `off` within a record. -/
def number (f : ElfFile) (record : Bytes) (off n : Nat) : Nat :=
  let digits := (record.drop off).take n
  if f.highFirst then Bytes.ofBigEndian digits else Bytes.ofLittleEndian digits

/-- The number of a word at one of two offsets, by the word size. -/
def word (f : ElfFile) (record : Bytes) (narrow wide : Nat) : Nat :=
  if f.wide then f.number record wide 8 else f.number record narrow 4

/-- The number of `n` bytes at one of two offsets, by the word size. -/
def pick (f : ElfFile) (record : Bytes) (narrow wide n : Nat) : Nat :=
  f.number record (if f.wide then wide else narrow) n

/-- A number of 64 bits with its sign. -/
def signed (n : Nat) : Int := if n < 0x8000000000000000 then n else n - UInt64.size

/-- Refuses a value when a condition holds. -/
def refuse (bad : Bool) (what : String) (value : Bytes) (place : Nat) : Except Fault Unit :=
  if bad then .error (.format what value place) else .ok ()

/-- The body of a section. -/
def body (f : ElfFile) (s : Section) : Except Fault Bytes :=
  let found := (f.content.drop s.offset).take s.size
  if s.type = 8 && s.size ≠ 0 then .error (.other "unexpected read from SHT_NOBITS section")
  else if found.length = s.size then .ok found
  else .error (if found.isEmpty then .ended else .cutOff)

/-- The text at an offset of a table of texts, each of which ends with a zero. -/
def textAt? (table : Bytes) (off : Nat) : Option Bytes :=
  let rest := table.drop off
  if rest.contains 0 then some (rest.takeWhile (· != 0)) else none

/-- Reads the first sixteen bytes. -/
def identify (content : Bytes) : Except Fault ElfFile := do
  let ident ← bytesAt content 0 16
  let at_ (i : Nat) := (ident.getD i 0).toNat
  let magic := ident.take 4
  refuse (magic != [0x7f, 0x45, 0x4c, 0x46]) "bad magic number"
    (.concat [.ofString "[", .intercalate [0x20] (magic.map fun b => .ofNat b.toNat),
      .ofString "]"]) 0
  refuse (at_ 4 ≠ 1 && at_ 4 ≠ 2) "unknown ELF class" (named classNames (at_ 4)) 0
  refuse (at_ 5 ≠ 1 && at_ 5 ≠ 2) "unknown ELF data encoding" (named dataNames (at_ 5)) 0
  refuse (at_ 6 ≠ 1) "unknown ELF version" (named versionNames (at_ 6)) 0
  return { content, wide := at_ 4 = 2, highFirst := at_ 5 = 2, osabi := at_ 7 }

/-- Where the tables of a file are. -/
structure Layout where
  programs : Nat
  programSize : Nat
  programCount : Nat
  sections : Nat
  sectionSize : Nat
  sectionCount : Nat
  /-- the number of the section of section names -/
  names : Nat

/-- Checks the places and sizes of the tables. -/
def Layout.check (l : Layout) (wide : Bool) : Except Fault Unit := do
  refuse (signed l.sections < 0) "invalid shoff" (.ofInt (signed l.sections)) 0
  refuse (signed l.programs < 0) "invalid phoff" (.ofInt (signed l.programs)) 0
  refuse (l.sections = 0 && l.sectionCount ≠ 0) "invalid ELF shnum for shoff=0"
    (.ofNat l.sectionCount) 0
  refuse (0 < l.sectionCount && l.sectionCount ≤ l.names) "invalid ELF shstrndx" (.ofNat l.names) 0
  refuse (0 < l.programCount && l.programSize < if wide then 56 else 32) "invalid ELF phentsize"
    (.ofNat l.programSize) 0

/-- Where the tables are by the file header. -/
def layoutOf (f : ElfFile) (record : Bytes) : Layout where
  programs := f.word record 28 32
  programSize := f.pick record 42 54 2
  programCount := f.pick record 44 56 2
  sections := f.word record 32 40
  sectionSize := f.pick record 46 58 2
  sectionCount := f.pick record 48 60 2
  names := f.pick record 50 62 2

/-- Reads the file header. -/
def header (f : ElfFile) : Except Fault (ElfFile × Layout) := do
  let record ← bytesAt f.content 0 (if f.wide then 64 else 52)
  let version := f.number record 20 4
  refuse (version ≠ 1) "mismatched ELF version" (named versionNames version) 0
  let l := f.layoutOf record
  l.check f.wide
  return ({ f with machine := f.number record 18 2 }, l)

/-- Checks the program headers. -/
def checkPrograms (f : ElfFile) (l : Layout) : Except Fault Unit := do
  let table ← bytesAt f.content l.programs (l.programCount * l.programSize)
  for i in List.range l.programCount do
    let place := i * l.programSize
    let record := table.drop place
    let offset := f.word record 4 8
    let size := f.word record 16 32
    refuse (signed offset < 0) "invalid program header offset" (.ofNat offset) (l.programs + place)
    refuse (signed size < 0) "invalid program header file size" (.ofNat size) (l.programs + place)

/-- The number of sections and the section of names of a file with very many sections, which the
first section header holds. -/
def manySections (f : ElfFile) (l : Layout) : Except Fault Layout := do
  if l.sections = 0 || l.sectionCount ≠ 0 then return l
  let size := if f.wide then 64 else 40
  let record := (f.content.drop l.sections).take size
  if record.length < size then throw (if record.isEmpty then .ended else .cutOff)
  let type := f.number record 4 4
  let count := f.word record 20 32
  refuse (type ≠ 0) "invalid type of the initial section" (named typeNames type) l.sections
  refuse (signed count < 0xff00) "invalid ELF shnum contained in sh_size" (.ofInt (signed count))
    l.sections
  if l.names ≠ 0xffff then return { l with sectionCount := count }
  let names := f.pick record 24 40 4
  refuse (names < 0xff00) "invalid ELF shstrndx contained in sh_link" (.ofNat names) l.sections
  return { l with sectionCount := count, names := names }

/-- The section of a section header, still without its name. -/
def sectionOf (f : ElfFile) (record : Bytes) : Section where
  type := f.number record 4 4
  offset := f.word record 16 24
  size := f.word record 20 32
  link := f.pick record 24 40 4

/-- Reads the section headers; also gives the places of the names. -/
def headers (f : ElfFile) (l : Layout) : Except Fault (List (Section × Nat)) := do
  refuse (0 < l.sectionCount && l.sectionSize < if f.wide then 64 else 40) "invalid ELF shentsize"
    (.ofNat l.sectionSize) 0
  let table ← bytesAt f.content l.sections (l.sectionCount * l.sectionSize)
  (List.range l.sectionCount).mapM fun i => do
    let place := i * l.sectionSize
    let record := table.drop place
    let s := f.sectionOf record
    refuse (signed s.offset < 0) "invalid section offset" (.ofInt (signed s.offset))
      (l.sections + place)
    refuse (signed s.size < 0) "invalid section size" (.ofInt (signed s.size)) (l.sections + place)
    return (s, f.number record 0 4)

/-- Gives the sections their names. -/
def nameSections (f : ElfFile) (l : Layout) (found : List (Section × Nat)) :
    Except Fault (List Section) := do
  match if l.names = 0 then none else found[l.names]? with
  | none => return found.map (·.1)
  | some (table, _) =>
    refuse (table.type ≠ 3) "invalid ELF section name string table type"
      (named typeNames table.type) (l.sections + l.names * l.sectionSize)
    let names ← f.body table
    found.zipIdx.mapM fun ((s, place), i) =>
      match textAt? names place with
      | some name => return { s with name := name }
      | none =>
        throw (.format "bad section name index" (.ofNat place) (l.sections + i * l.sectionSize))

/-- Reads an ELF file. -/
def ofBytes (content : Bytes) : Except Fault ElfFile := do
  let f ← identify content
  let (f, l) ← f.header
  f.checkPrograms l
  let l ← f.manySections l
  let found ← f.headers l
  return { f with sections := ← f.nameSections l found }

/-! ## Symbols -/

/-- The symbol of a record. -/
def symbolOf (f : ElfFile) (names record : Bytes) : Symbol where
  name := (textAt? names (f.number record 0 4)).getD []
  value := f.word record 4 8
  size := f.word record 8 16
  home := f.pick record 14 6 2

/-- The records of a table. -/
def recordsOf (size : Nat) (count : Nat) (table : Bytes) : List Bytes :=
  (List.range count).map fun i => (table.drop (i * size)).take size

/-- The size of a symbol. -/
def symbolSize (f : ElfFile) : Nat := if f.wide then 24 else 16

/-- The records of a table of symbols. -/
def symbolRecords (f : ElfFile) (table : Bytes) : List Bytes :=
  recordsOf f.symbolSize (table.length / f.symbolSize) table

/-- The names of the symbols of a table. -/
def stringsOf (f : ElfFile) (table : Section) : Except Fault Bytes :=
  match if table.link = 0 then none else f.sections[table.link]? with
  | none => .error (.strings (.other "section has invalid string table link"))
  | some s => (f.body s).mapError .strings

/-- The symbols of a file, without the empty one that comes first. -/
def symbols (f : ElfFile) : Except Fault (List Symbol) := do
  match f.sections.find? (·.type = 2) with
  | none => throw (.other "no symbol section")
  | some table =>
    let data ← (f.body table).mapError .symbols
    if data.isEmpty then throw (.other "symbol section is empty")
    if data.length % f.symbolSize ≠ 0 then
      throw (.other "length of symbol section is not a multiple of SymSize")
    let names ← f.stringsOf table
    return ((f.symbolRecords data).drop 1).map (f.symbolOf names)

end ElfFile

end CatalystAsm
