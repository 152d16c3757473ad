import CatalystAsm.Container.ElfFile
import CatalystAsm.Proofs.Container.Size

/-!
# Records of ELF files

What a reader finds in the records that an image is written with: the file header, the section
headers, the program headers and the symbols. A number is read back from the place where it was
written (`ElfFile.number_ofUInt32`), whatever stands before it (`ElfFile.number_append_of_le`) and
behind it, so a whole record is read back field by field.
-/

namespace CatalystAsm

namespace ElfFile

/-! ## Numbers -/

/-- What stands before a number is passed over. -/
theorem number_append_of_le (f : ElfFile) {a r : Bytes} {off n : Nat} (h : a.length ≤ off) :
    f.number (a ++ r) off n = f.number r (off - a.length) n := by
  unfold number
  rw [List.drop_append, List.drop_eq_nil_of_le h, List.nil_append]

/-- A number that begins behind the first byte does not depend on it. -/
theorem number_cons_of_pos (f : ElfFile) {a : UInt8} {r : Bytes} {off n : Nat} (h : 0 < off) :
    f.number (a :: r) off n = f.number r (off - 1) n :=
  f.number_append_of_le (a := [a]) h

variable {f : ElfFile}

/-- A reader finds the low bytes of what was written, as many as there is room for. -/
theorem number_littleEndian (hf : f.highFirst = false) (n v : Nat) (r : Bytes) :
    f.number (.littleEndian n v ++ r) 0 n = v % Nat.pow 256 n := by
  simp only [number, List.drop_zero, List.take_left' (Bytes.length_littleEndian n v), hf]
  exact Bytes.ofLittleEndian_littleEndian n v

theorem number_ofUInt16 (hf : f.highFirst = false) (v : UInt16) (r : Bytes) :
    f.number (.ofUInt16 v ++ r) 0 2 = v.toNat :=
  (number_littleEndian hf 2 v.toNat r).trans (Nat.mod_eq_of_lt v.toNat_lt)

theorem number_ofUInt32 (hf : f.highFirst = false) (v : UInt32) (r : Bytes) :
    f.number (.ofUInt32 v ++ r) 0 4 = v.toNat :=
  (number_littleEndian hf 4 v.toNat r).trans (Nat.mod_eq_of_lt v.toNat_lt)

theorem number_ofUInt64 (hf : f.highFirst = false) (v : UInt64) (r : Bytes) :
    f.number (.ofUInt64 v ++ r) 0 8 = v.toNat :=
  (number_littleEndian hf 8 v.toNat r).trans (Nat.mod_eq_of_lt v.toNat_lt)

theorem number_littleEndian_of_lt (hf : f.highFirst = false) {n v : Nat} (hv : v < Nat.pow 256 n)
    (r : Bytes) : f.number (.littleEndian n v ++ r) 0 n = v := by
  rw [number_littleEndian hf, Nat.mod_eq_of_lt hv]

end ElfFile

theorem toNat_of_word32 {field : ImageField} {n : Nat} {v : UInt32}
    (h : word32 field n = .ok v) : v.toNat = n := (ends_word32 field n).of_eq_ok h

theorem toNat_of_word16 {field : ImageField} {n : Nat} {v : UInt16}
    (h : word16 field n = .ok v) : v.toNat = n := (ends_word16 field n).of_eq_ok h

namespace Elf

/-! ## File headers -/

namespace Image

@[simp] theorem length_ident (im : Image) : im.ident.length = 16 := by simp [ident]

/-- Where the tables of an image are, when its section header table is at an offset. -/
def layoutAt (im : Image) (tableOffset : Nat) : ElfFile.Layout where
  programs := if im.programs = 0 then 0 else headerLength im.wide
  programSize := if im.wide then 56 else 32
  programCount := im.programs
  sections := tableOffset
  sectionSize := sectionHeaderLength im.wide
  sectionCount := im.sections.length + 1
  names := 1

/-- A file header tells the version, the machine and where the tables are. -/
theorem reads_headerBytes {im : Image} {tableOffset : Nat} {h r : Bytes} {f : ElfFile}
    (hh : im.headerBytes tableOffset = .ok h) (hf : f.highFirst = false)
    (hw : f.wide = im.wide) (hlen : im.wide = true → tableOffset < UInt64.size) :
    f.number (h ++ r) 20 4 = 1 ∧ f.number (h ++ r) 18 2 = im.machine.toNat ∧
      f.layoutOf (h ++ r) = im.layoutAt tableOffset := by
  obtain ⟨sectionCount, hsections, hh⟩ := bind_eq_ok_iff.mp hh
  obtain ⟨programCount, hprograms, hh⟩ := bind_eq_ok_iff.mp hh
  have hs := toNat_of_word16 hsections
  have hp := toNat_of_word16 hprograms
  cases hwide : im.wide with
  | true =>
    rw [hwide] at hw
    simp only [hwide, if_true] at hh
    cases hh
    have ht : tableOffset < Nat.pow 256 8 := hlen hwide
    have hp0 : (if im.programs = 0 then 0 else headerLength true) < Nat.pow 256 8 := by
      split <;> decide
    -- a field is found by passing over the fields before it
    simp only [List.append_assoc]
    refine ⟨?_, ?_, ?_⟩
    · simp [ElfFile.number_append_of_le, ElfFile.number_ofUInt32 hf]
    · simp [ElfFile.number_append_of_le, ElfFile.number_ofUInt16 hf]
    · simp [ElfFile.layoutOf, ElfFile.word, ElfFile.pick, hw, layoutAt, hwide,
        sectionHeaderLength, ElfFile.number_append_of_le, ElfFile.number_ofUInt16 hf,
        ElfFile.number_littleEndian_of_lt hf ht, ElfFile.number_littleEndian_of_lt hf hp0, hs, hp]
  | false =>
    rw [hwide] at hw
    simp only [hwide] at hh
    obtain ⟨tableWord, htable, hh⟩ := bind_eq_ok_iff.mp hh
    have ht := toNat_of_word32 htable
    cases hh
    have hp0 : (if im.programs = 0 then 0 else headerLength false) < Nat.pow 256 4 := by
      split <;> decide
    simp only [List.append_assoc]
    refine ⟨?_, ?_, ?_⟩
    · simp [ElfFile.number_append_of_le, ElfFile.number_ofUInt32 hf]
    · simp [ElfFile.number_append_of_le, ElfFile.number_ofUInt16 hf]
    · simp [ElfFile.layoutOf, ElfFile.word, ElfFile.pick, hw, layoutAt, hwide,
        sectionHeaderLength, ElfFile.number_append_of_le, ElfFile.number_ofUInt16 hf,
        ElfFile.number_ofUInt32 hf, ElfFile.number_littleEndian_of_lt hf hp0, hs, hp, ht]

end Image

/-! ## Section headers -/

/-- The section that a reader finds in a section header. -/
def SectionHeader.found (s : SectionHeader) (off size : Nat) : ElfFile.Section where
  type := s.type.toNat
  offset := off
  size := size
  link := s.link.toNat

/-- A section header tells the place of the name and the section. -/
theorem reads_sectionHeader {wide : Bool} {s : SectionHeader} {off size : Nat} {h r : Bytes}
    {f : ElfFile} (hh : s.bytes wide off size = .ok h) (hf : f.highFirst = false)
    (hw : f.wide = wide) (hoff : wide = true → off < UInt64.size)
    (hsize : wide = true → size < UInt64.size) :
    f.number (h ++ r) 0 4 = s.name.toNat ∧ f.sectionOf (h ++ r) = s.found off size := by
  cases wide with
  | true =>
    cases hh
    have hoff : off < Nat.pow 256 8 := hoff rfl
    have hsize : size < Nat.pow 256 8 := hsize rfl
    simp only [List.append_assoc]
    refine ⟨ElfFile.number_ofUInt32 hf _ _, ?_⟩
    simp [ElfFile.sectionOf, ElfFile.word, ElfFile.pick, hw, SectionHeader.found,
      ElfFile.number_append_of_le, ElfFile.number_ofUInt32 hf,
      ElfFile.number_littleEndian_of_lt hf hoff, ElfFile.number_littleEndian_of_lt hf hsize]
  | false =>
    obtain ⟨offWord, hoffWord, hh⟩ := bind_eq_ok_iff.mp hh
    obtain ⟨sizeWord, hsizeWord, hh⟩ := bind_eq_ok_iff.mp hh
    obtain ⟨_, -, hh⟩ := bind_eq_ok_iff.mp hh
    obtain ⟨_, -, hh⟩ := bind_eq_ok_iff.mp hh
    cases hh
    simp only [List.append_assoc]
    refine ⟨ElfFile.number_ofUInt32 hf _ _, ?_⟩
    simp [ElfFile.sectionOf, ElfFile.word, ElfFile.pick, hw, SectionHeader.found,
      ElfFile.number_append_of_le, ElfFile.number_ofUInt32 hf, toNat_of_word32 hoffWord,
      toNat_of_word32 hsizeWord]

/-! ## Symbols -/

/-- One more than the largest word. -/
def wordRange (wide : Bool) : Nat := if wide then UInt64.size else UInt32.size

/-- A symbol tells the place of its name, its value and size as far as a word holds them, and its
section. -/
theorem reads_symbolBytes (wide : Bool) (s : SymbolEntry) {r : Bytes} {f : ElfFile}
    (hf : f.highFirst = false) (hw : f.wide = wide) (names : Bytes) :
    f.number (s.bytes wide ++ r) 0 4 = s.name.toNat ∧
      f.symbolOf names (s.bytes wide ++ r) =
        { name := (ElfFile.textAt? names s.name.toNat).getD []
          value := s.value.toNat % wordRange wide
          size := s.size.toNat % wordRange wide
          home := s.index % UInt16.size } := by
  cases wide with
  | true =>
    simp only [SymbolEntry.bytes, if_true, List.append_assoc]
    refine ⟨ElfFile.number_ofUInt32 hf _ _, ?_⟩
    simp [ElfFile.symbolOf, ElfFile.word, ElfFile.pick, hw, ElfFile.number_append_of_le,
      ElfFile.number_cons_of_pos, ElfFile.number_ofUInt16 hf, ElfFile.number_ofUInt32 hf,
      ElfFile.number_ofUInt64 hf, wordRange]
  | false =>
    simp only [SymbolEntry.bytes, List.append_assoc]
    refine ⟨ElfFile.number_ofUInt32 hf _ _, ?_⟩
    simp [ElfFile.symbolOf, ElfFile.word, ElfFile.pick, hw, ElfFile.number_append_of_le,
      ElfFile.number_cons_of_pos, ElfFile.number_ofUInt16 hf, ElfFile.number_ofUInt32 hf, wordRange]

end Elf

/-! ## Program headers -/

namespace ElfFile

/-- A program header of a file. -/
structure Program where
  type : Nat
  offset : Nat
  fileSize : Nat
  memorySize : Nat
  deriving DecidableEq, Repr

/-- The program header of a record. -/
def programOf (f : ElfFile) (record : Bytes) : Program where
  type := f.number record 0 4
  offset := f.word record 4 8
  fileSize := f.word record 16 32
  memorySize := f.word record 20 40

/-- The program headers of a file. -/
def programs (f : ElfFile) (l : Layout) : Except Fault (List Program) := do
  let table ← bytesAt f.content l.programs (l.programCount * l.programSize)
  return (recordsOf l.programSize l.programCount table).map f.programOf

end ElfFile

/-- A program header of a kernel image tells what was put into it. -/
theorem Kernel.programOf_programHeader {type : UInt32} {off fileSize memorySize : Nat}
    {h : Bytes} {f : ElfFile} (hh : programHeader type off fileSize memorySize = .ok h)
    (hf : f.highFirst = false) (hw : f.wide = false) :
    f.programOf h = ⟨type.toNat, off, fileSize, memorySize⟩ := by
  obtain ⟨offWord, hoff, hh⟩ := bind_eq_ok_iff.mp hh
  obtain ⟨fileWord, hfile, hh⟩ := bind_eq_ok_iff.mp hh
  obtain ⟨memoryWord, hmemory, hh⟩ := bind_eq_ok_iff.mp hh
  cases hh
  simp [ElfFile.programOf, ElfFile.word, hw, ElfFile.number_append_of_le,
    ElfFile.number_ofUInt32 hf, toNat_of_word32 hoff, toNat_of_word32 hfile,
    toNat_of_word32 hmemory]

/-! ## Tables of records -/

/-- A table of records of one length, from a record on. -/
theorem drop_flatten_of_length {records : List Bytes} {n i : Nat} {c : Bytes}
    (hn : ∀ r ∈ records, r.length = n) (hi : records[i]? = some c) :
    records.flatten.drop (i * n) = c ++ (records.drop (i + 1)).flatten := by
  induction records generalizing i with
  | nil => simp at hi
  | cons first rest ih =>
    cases i with
    | zero =>
      cases hi
      simp
    | succ i =>
      have hfirst : first.length = n := hn first List.mem_cons_self
      rw [List.flatten_cons, Nat.add_mul, Nat.one_mul, Nat.add_comm, ← List.drop_drop,
        ← hfirst, List.drop_left, hfirst, List.drop_succ_cons]
      exact ih (fun r hr => hn r (List.mem_cons_of_mem _ hr)) (by simpa using hi)

/-- The records of a table are what the table was made of. -/
theorem ElfFile.recordsOf_flatten {records : List Bytes} {n : Nat}
    (hn : ∀ r ∈ records, r.length = n) :
    recordsOf n records.length records.flatten = records := by
  apply List.ext_getElem?
  intro i
  rw [recordsOf, List.getElem?_map]
  by_cases hi : i < records.length
  · have hget := List.getElem?_eq_getElem hi
    rw [List.getElem?_range hi, Option.map_some, drop_flatten_of_length hn hget, hget,
      List.take_left' (hn _ (List.getElem_mem hi))]
  · rw [List.getElem?_eq_none (by simpa using hi), List.getElem?_eq_none (by omega),
      Option.map_none]

/-! ## Names -/

/-- The bytes of `name` and a zero byte stand in a string table at offset `off`. -/
def NameAt (table : Bytes) (off : Nat) (name : Bytes) : Prop := name ++ [0] <+: table.drop off

instance (table : Bytes) (off : Nat) (name : Bytes) : Decidable (NameAt table off name) :=
  inferInstanceAs (Decidable (name ++ [0] <+: table.drop off))

/-- A reader finds a name up to its first zero byte. -/
theorem NameAt.textAt? {table name : Bytes} {off : Nat} (h : NameAt table off name) :
    ElfFile.textAt? table off = some (name.takeWhile (· != 0)) := by
  obtain ⟨r, hr⟩ := h
  rw [List.append_assoc, List.singleton_append] at hr
  have hzero : (name ++ 0 :: r).contains 0 = true := by simp
  rw [ElfFile.textAt?, ← hr, if_pos hzero, List.takeWhile_append]
  split
  · rename_i hall
    rw [List.takeWhile_cons_of_neg (by simp), List.append_nil]
    have hpre := List.takeWhile_prefix (l := name) (· != 0)
    rw [hpre.eq_of_length hall]
  · rfl

/-- What is put behind a string table leaves its names where they are. -/
theorem NameAt.append {table name : Bytes} {off : Nat} (h : NameAt table off name) (r : Bytes) :
    NameAt (table ++ r) off name := by
  rw [NameAt, List.drop_append]
  exact h.trans (List.prefix_append _ _)

/-- Each name stands in the string table at its offset. -/
theorem Elf.nameAt_stringTable (start : Bytes) {names : List Bytes} {offs : List UInt32}
    (h : nameOffsets start.length names = .ok offs) :
    List.Forall₂ (fun off name => NameAt (stringTable start names) off.toNat name) offs names := by
  induction names generalizing start offs with
  | nil =>
    cases h
    exact .nil
  | cons name rest ih =>
    obtain ⟨off, hoff, h⟩ := bind_eq_ok_iff.mp h
    obtain ⟨others, hothers, h⟩ := bind_eq_ok_iff.mp h
    cases h
    have hlen : start.length + name.length + 1 = (start ++ (name ++ [0])).length := by
      simp [Nat.add_assoc]
    rw [hlen] at hothers
    have htable : stringTable start (name :: rest) = stringTable (start ++ (name ++ [0])) rest := by
      simp [stringTable]
    refine .cons ?_ (htable ▸ ih _ hothers)
    rw [NameAt, toNat_of_word32 hoff, stringTable, List.drop_left, List.flatMap_cons]
    exact List.prefix_append _ _

/-- What is made of things and of the offsets of their names in a string table: each of it has the
name of its thing. -/
theorem Elf.nameAt_of_mapM {α β : Type} {name : α → Bytes} {place : β → UInt32}
    {make : α × UInt32 → Except ImageError β}
    (hmake : ∀ {e : α × UInt32} {c : β}, make e = .ok c → place c = e.2) (start : Bytes)
    {l : List α} {offs : List UInt32} {made : List β}
    (hoffs : nameOffsets start.length (l.map name) = .ok offs)
    (h : (l.zip offs).mapM make = .ok made) :
    List.Forall₂ (fun a c => NameAt (stringTable start (l.map name)) (place c).toNat (name a) ∧
      make (a, place c) = .ok c) l made := by
  have hnames := nameAt_stringTable start hoffs
  rw [List.forall₂_map_right_iff] at hnames
  refine forall₂_of_zip (fun hname hc => ?_) hnames.flip (mapM_eq_ok_iff.mp h)
  have hplace := hmake hc
  rw [hplace]
  exact ⟨hname, hc⟩

/-! ## Symbols -/

namespace Elf

section

variable {symbols : List SymbolEntry} {names : List UInt32}

/-- Giving names to symbols keeps the names in order. -/
theorem map_name_named (h : names.length = symbols.length) :
    (named symbols names).map (·.name) = names := by
  rw [named, List.map_map]
  exact List.map_snd_zip (Nat.le_of_eq h)

theorem length_named (h : names.length = symbols.length) :
    (named symbols names).length = symbols.length := by
  rw [named, List.length_map, List.length_zip, h, Nat.min_self]

/-- A symbol keeps everything but its name when it gets one. -/
theorem exists_named (h : names.length = symbols.length) {i : Nat} {s : SymbolEntry}
    (hs : symbols[i]? = some s) :
    ∃ name, (named symbols names)[i]? = some { s with name := name } := by
  have hi : i < names.length := h ▸ (List.getElem?_eq_some_iff.mp hs).1
  have hpair : (symbols.zip names)[i]? = some (s, names[i]) :=
    List.getElem?_zip_eq_some.mpr ⟨hs, List.getElem?_eq_getElem hi⟩
  exact ⟨names[i], by rw [named, List.getElem?_map, hpair, Option.map_some]⟩

end

end Elf

/-! ## Extra symbols and sections -/

namespace Elf

variable {indexOf : SectionTag → Option Nat} {use : TagUse}

/-- A symbol table entry has the data of an extra symbol and the number of its section. -/
structure SymbolEntry.Copies (indexOf : SectionTag → Option Nat) (s : ExtraSymbol)
    (made : SymbolEntry) : Prop where
  value : made.value = s.value
  size : made.size = s.size
  info : made.info = s.info
  other : made.other = s.other
  index : indexOf s.home = some made.index

/-- The number of a symbol's section is the one of its tag. -/
theorem homeIndex_eq_ok {s : ExtraSymbol} {index : Nat} (h : homeIndex indexOf use s = .ok index) :
    indexOf s.home = some index := by
  rw [homeIndex] at h
  split at h
  · cases h
  · rename_i hindex
    cases h
    exact hindex

/-- The entries of extra symbols copy them, and have the offsets of their names. -/
theorem extraSymbols_eq_ok {use : ExtraSymbol → TagUse} {start : Nat} {l : List ExtraSymbol}
    {made : List SymbolEntry} (h : extraSymbols indexOf use start l = .ok made) :
    nameOffsets start (l.map (·.name)) = .ok (made.map (·.name)) ∧
      List.Forall₂ (SymbolEntry.Copies indexOf) l made := by
  induction l generalizing start made with
  | nil =>
    cases h
    exact ⟨rfl, .nil⟩
  | cons s rest ih =>
    obtain ⟨index, hindex, h⟩ := bind_eq_ok_iff.mp h
    obtain ⟨name, hname, h⟩ := bind_eq_ok_iff.mp h
    obtain ⟨more, hmore, h⟩ := bind_eq_ok_iff.mp h
    cases h
    obtain ⟨hnames, hcopies⟩ := ih hmore
    refine ⟨?_, .cons ⟨rfl, rfl, rfl, rfl, homeIndex_eq_ok hindex⟩ hcopies⟩
    rw [List.map_cons, nameOffsets, hname, ok_bind, hnames]
    rfl

/-- An extra section keeps its type and its data. -/
theorem extraSection_eq_ok {s : ExtraSection} {name : UInt32} {made : Section}
    (h : extraSection indexOf use s name = .ok made) :
    made.header.name = name ∧ made.header.type = s.type ∧
      made.body = .ofBytes (s.data.getD []) := by
  obtain ⟨_, -, h⟩ := bind_eq_ok_iff.mp h
  cases h
  exact ⟨rfl, rfl, rfl⟩

end Elf

end CatalystAsm
