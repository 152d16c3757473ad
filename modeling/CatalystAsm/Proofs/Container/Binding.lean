import CatalystAsm.Proofs.Container.Export

/-!
# Local and global symbols

The header of a symbol table tells how many of its entries are local; these come first. A reader
finds this number in the section header and the binding of each entry in its record
(`ElfFile.bindings`). In a binary the entries of the compile options and of the kernels are local,
in a kernel image only the empty entry is, and the extra symbols follow. So both tables are split as
their headers say, if no extra symbol is local (`Model.bindings_generate`,
`Kernel.bindings_imageBytes`).
-/

namespace CatalystAsm

namespace ElfFile

/-- The bindings of a symbol table: how many entries are local by the header of the table, and the
binding that each entry has, the empty one included. -/
structure Bindings where
  locals : Nat
  entries : List Nat
  deriving DecidableEq, Repr

/-- Reads the bindings of the first symbol table of a file. -/
def bindings (content : Bytes) : Except Fault Bindings := do
  let (f, l, found) ← tables content
  match found.zipIdx.find? fun e => e.1.1.type = 2 with
  | none => .error (.other "no symbol section")
  | some (e, i) =>
    let header ← bytesAt content (l.sections + i * l.sectionSize) l.sectionSize
    let table ← f.body e.1
    return ⟨f.pick header 28 44 4, (f.symbolRecords table).map fun r => f.pick r 12 4 1 / 16⟩

/-- The local entries are those before the number that the header tells. -/
structure Bindings.Split (t : Bindings) : Prop where
  locals_le : t.locals ≤ t.entries.length
  local_iff : ∀ i bind, t.entries[i]? = some bind → (bind = 0 ↔ i < t.locals)

/-- A table of local entries and then others is split, if its header tells the number of the
former. -/
theorem Bindings.split_append (n : Nat) {others : List Nat} (h : ∀ bind ∈ others, bind ≠ 0) :
    Split ⟨n, List.replicate n 0 ++ others⟩ where
  locals_le := by
    rw [List.length_append, List.length_replicate]
    exact Nat.le_add_right n _
  local_iff i bind hbind := by
    rw [List.getElem?_append, List.length_replicate] at hbind
    split_ifs at hbind with hi
    · rw [List.getElem?_replicate, if_pos hi] at hbind
      cases hbind
      exact ⟨fun _ => hi, fun _ => rfl⟩
    · exact ⟨fun hzero => absurd hzero (h bind (List.mem_of_getElem? hbind)),
        fun hlt => absurd hlt hi⟩

end ElfFile

/-! ## Records -/

namespace Elf

/-- A symbol that was made local is local, of whatever kind it is. -/
theorem bindOf_symbolInfo_local (kind : UInt8) :
    (bindOf (symbolInfo bindLocal kind)).toNat = 0 := by
  have hlow : (kind &&& 0x0f).toNat < 16 := by
    rw [UInt8.toNat_and]
    exact Nat.lt_succ_of_le Nat.and_le_right
  have hshift : bindLocal <<< 4 = 0 := by decide
  rw [symbolInfo, bindOf, hshift, UInt8.zero_or, UInt8.toNat_shiftRight, Nat.shiftRight_eq_div_pow]
  exact Nat.div_eq_of_lt hlow

/-- A section header tells its number of local entries. -/
theorem info_sectionHeader {wide : Bool} {s : SectionHeader} {off size : Nat} {h : Bytes}
    {f : ElfFile} (hh : s.bytes wide off size = .ok h) (hf : f.highFirst = false)
    (hw : f.wide = wide) : f.pick h 28 44 4 = s.info.toNat := by
  cases wide with
  | true =>
    cases hh
    simp [ElfFile.pick, hw, ElfFile.number_append_of_le, ElfFile.number_ofUInt32 hf]
  | false =>
    obtain ⟨_, -, hh⟩ := bind_eq_ok_iff.mp hh
    obtain ⟨_, -, hh⟩ := bind_eq_ok_iff.mp hh
    obtain ⟨_, -, hh⟩ := bind_eq_ok_iff.mp hh
    obtain ⟨_, -, hh⟩ := bind_eq_ok_iff.mp hh
    cases hh
    simp [ElfFile.pick, hw, ElfFile.number_append_of_le, ElfFile.number_ofUInt32 hf]

/-- A symbol tells its binding. -/
theorem bind_symbolBytes (wide : Bool) (s : SymbolEntry) {f : ElfFile} (hf : f.highFirst = false)
    (hw : f.wide = wide) : f.pick (s.bytes wide) 12 4 1 / 16 = (bindOf s.info).toNat := by
  have hinfo : f.pick (s.bytes wide) 12 4 1 = s.info.toNat := by
    have hbyte (r : Bytes) : f.number (s.info :: r) 0 1 = s.info.toNat := by
      simp [ElfFile.number, hf, Bytes.ofLittleEndian]
    cases wide with
    | true => simp [SymbolEntry.bytes, ElfFile.pick, hw, ElfFile.number_append_of_le, hbyte]
    | false => simp [SymbolEntry.bytes, ElfFile.pick, hw, ElfFile.number_append_of_le, hbyte]
  rw [hinfo, bindOf, UInt8.toNat_shiftRight, Nat.shiftRight_eq_div_pow]
  rfl

namespace Image

variable {im : Image} {b : Bytes}

/-- A reader finds the header of a section in its place. -/
theorem exists_headerRecord (hb : im.plan.Written b) {i : Nat} {s : Section}
    (hs : im.sections[i]? = some s) :
    ∃ off size c, s.header.bytes im.wide off size = .ok c ∧
      ElfFile.bytesAt b (im.layout.sections + (i + 1) * im.layout.sectionSize)
        im.layout.sectionSize = .ok c := by
  obtain ⟨null, records, hbytes, hlength, -, hrecords⟩ := exists_sectionRecords hb
  obtain ⟨c, hc, hwrite⟩ := hrecords hs
  refine ⟨_, _, c, hwrite, ?_⟩
  have hplace : (null :: records)[i + 1]? = some c := hc
  have hsize : c.length = im.layout.sectionSize := hlength c (List.mem_of_getElem? hplace)
  have hfit : (i + 1) * im.layout.sectionSize + im.layout.sectionSize
      ≤ im.layout.sectionCount * im.layout.sectionSize := by
    have hi : i + 2 ≤ im.layout.sectionCount :=
      Nat.succ_le_succ (List.getElem?_eq_some_iff.mp hs).1
    rw [← Nat.succ_mul]
    exact Nat.mul_le_mul_right _ hi
  obtain ⟨htable, -⟩ := ElfFile.bytesAt_eq_ok_iff.mp hbytes
  have hcut : (null :: records).flatten.drop ((i + 1) * im.layout.sectionSize)
      = c ++ ((null :: records).drop (i + 1 + 1)).flatten :=
    drop_flatten_of_length hlength hplace
  refine ElfFile.bytesAt_eq_ok_iff.mpr ⟨?_, hsize⟩
  rw [← take_drop_take_drop b hfit, htable, hcut, List.take_left' hsize]

/-- **A reader finds the bindings of a symbol table**: the number that its header was made with, and
the bindings of its entries. -/
theorem bindings_of_written (hb : im.plan.Written b) (hlen : b.length < ElfFile.lengthLimit)
    {i : Nat} {table : Section} {symbols : List SymbolEntry}
    (htable : im.sections[i]? = some table) (hbody : table.body = symbolTable im.wide symbols)
    (htype : table.header.type = typeSymbols)
    (hfind : (im.found.zipIdx.find? fun e => e.1.1.type = 2) = im.found.zipIdx[i + 1]?) :
    ElfFile.bindings b
      = .ok ⟨table.header.info.toNat, symbols.map fun s => (bindOf s.info).toNat⟩ := by
  have hsections : im.sections ≠ [] := by
    rintro hnil
    rw [hnil] at htable
    cases htable
  obtain ⟨off, size, header, hwrite, hheader⟩ := exists_headerRecord hb htable
  have hrecords := hb.bytesAt (getElem?_body htable) (congrArg (·.emit im.plan.placement) hbody)
  have htype : (table.header.found (im.plan.placement.offset (im.bodyPiece i))
      table.body.size).type ≠ 8 := by
    show table.header.type.toNat ≠ 8
    rw [htype]
    decide
  have hread := ElfFile.body_eq_ok (f := im.file b) htype hrecords
  have hwide : (im.file b).wide = im.wide := rfl
  rw [List.getElem?_zipIdx, getElem?_found htable] at hfind
  rw [ElfFile.bindings, tables_of_written hb hlen hsections, ok_bind]
  dsimp only
  rw [hfind]
  simp only [Option.map_some, Nat.zero_add]
  rw [hheader, ok_bind, hread, ok_bind, symbolRecords_symbols hwide, List.map_map,
    info_sectionHeader hwrite rfl hwide]
  have hentries : symbols.map ((fun r => (im.file b).pick r 12 4 1 / 16) ∘ (·.bytes im.wide))
      = symbols.map fun s => (bindOf s.info).toNat :=
    List.map_congr_left fun s _ => bind_symbolBytes im.wide s rfl hwide
  rw [hentries]
  rfl

end Image

/-- Names that have offsets are not more than offsets can tell apart. -/
theorem add_length_le_of_nameOffsets {start : Nat} {names : List Bytes} {offs : List UInt32}
    (h : nameOffsets start names = .ok offs) (hne : names ≠ []) :
    start + names.length ≤ UInt32.size := by
  induction names generalizing start offs with
  | nil => exact absurd rfl hne
  | cons name rest ih =>
    obtain ⟨off, hoff, h⟩ := bind_eq_ok_iff.mp h
    obtain ⟨others, hothers, -⟩ := bind_eq_ok_iff.mp h
    rw [List.length_cons]
    by_cases hrest : rest = []
    · have hlt := off.toNat_lt
      rw [toNat_of_word32 hoff] at hlt
      rw [hrest]
      exact hlt
    · have hle := ih hothers hrest
      omega

end Elf

/-! ## Kernel images -/

/-- **In a kernel image only the empty entry is local by the header**; the extra symbols follow. -/
theorem Kernel.bindings_imageBytes {k : Kernel} {device : UInt32} {notes : List CalNote} {b : Bytes}
    (h : k.imageBytes device notes = .ok b) :
    ElfFile.bindings b
      = .ok ⟨1, List.replicate 1 0 ++ k.symbolList.map fun s => (Elf.bindOf s.info).toNat⟩ := by
  obtain ⟨im, him, hb⟩ := bind_eq_ok_iff.mp h
  obtain ⟨symbols, extras, rfl, hsymbols, -⟩ := image_eq_ok him
  have hb := Plan.written_of_write hb
  have hlen := Elf.Image.length_lt hb (fun hwide => by cases hwide)
  have hfind : ((k.imageWith device notes symbols extras).found.zipIdx.find? fun e =>
      e.1.1.type = 2) = (k.imageWith device notes symbols extras).found.zipIdx[4]? := by
    simp only [Elf.Image.found, imageWith, List.cons_append, List.mapIdx_cons]
    rfl
  have hentries : symbols.map (fun s => (Elf.bindOf s.info).toNat)
      = k.symbolList.map fun s => (Elf.bindOf s.info).toNat := by
    refine map_eq_map_of_forall₂ (hsymbols.flip.imp fun made s hmade => ?_)
    rw [hmade.2.info]
  rw [Elf.Image.bindings_of_written hb hlen (i := 3) rfl rfl rfl hfind, List.map_cons, hentries]
  rfl

/-! ## Binaries -/

namespace Model

variable {m : Model} {parts : List KernelPart}

theorem bindOf_kernelSymbols {rodata text : Nat} {s : Elf.SymbolEntry}
    (hs : s ∈ kernelSymbols rodata text parts) : (Elf.bindOf s.info).toNat = 0 := by
  induction parts generalizing rodata text with
  | nil => cases hs
  | cons p rest ih =>
    simp only [kernelSymbols, List.mem_append, List.mem_cons, List.not_mem_nil, or_false] at hs
    rcases hs with (rfl | rfl | rfl) | hs
    · exact Elf.bindOf_symbolInfo_local _
    · exact Elf.bindOf_symbolInfo_local _
    · exact Elf.bindOf_symbolInfo_local _
    · exact ih hs

/-- The symbols of the compile options and of the kernels are local. -/
theorem map_bindOf_localSymbols (hparts : m.kernelParts = .ok parts) :
    (m.localSymbols parts).map (fun s => (Elf.bindOf s.info).toNat)
      = List.replicate (3 * m.kernelList.length + 1) 0 := by
  rw [List.eq_replicate_iff]
  constructor
  · rw [List.length_map, length_localSymbols hparts]
  · intro bind hbind
    obtain ⟨s, hs, rfl⟩ := List.mem_map.mp hbind
    rcases List.mem_cons.mp hs with rfl | hs
    · exact Elf.bindOf_symbolInfo_local _
    · exact bindOf_kernelSymbols hs

/-- The number of local symbols fits the header of the symbol table, since their names fit the
strings. -/
theorem locals_lt {im : Elf.Image} (h : m.image = .ok (parts, im)) :
    3 * m.kernelList.length + 2 < UInt32.size := by
  obtain ⟨-, _, _, _, _, -, hoffsets, -⟩ := image_eq_ok h
  have hlength := length_localNames m.kernelList
  -- the first name is that of the compile options, and takes more than its zero byte
  obtain ⟨rest, hnames⟩ : ∃ rest, localNames m.kernelList = optionsName :: rest := ⟨_, rfl⟩
  have hfirst : optionsName.length = 24 := by decide +kernel
  rw [hnames] at hoffsets hlength
  obtain ⟨_, -, hoffsets⟩ := bind_eq_ok_iff.mp hoffsets
  obtain ⟨_, hrest, -⟩ := bind_eq_ok_iff.mp hoffsets
  rw [List.length_cons] at hlength
  by_cases hnil : rest = []
  · rw [hnil, List.length_nil] at hlength
    have hsmall : 2 < UInt32.size := by decide
    omega
  · have hle := Elf.add_length_le_of_nameOffsets hrest hnil
    omega

/-- **In a binary the symbols of its own are local by the header**; the extra symbols follow. -/
theorem bindings_generate {b : Bytes} (h : m.generate = .ok b)
    (hlen : m.is64 = true → b.length < ElfFile.lengthLimit) :
    ElfFile.bindings b = .ok ⟨3 * m.kernelList.length + 2,
      List.replicate (3 * m.kernelList.length + 2) 0 ++
        m.symbolList.map fun s => (Elf.bindOf s.info).toNat⟩ := by
  obtain ⟨parts, im, hparts, him, hb⟩ := exists_image h
  have hlocals := locals_lt him
  obtain ⟨symbols, extras, more, rfl, hnames, hmore, hall, -⟩ := image_symbols him
  have hlen := Elf.Image.length_lt hb hlen
  have hcount := length_localSymbols hparts
  have hfind : ((m.imageWith parts symbols extras).found.zipIdx.find? fun e =>
      e.1.1.type = 2) = (m.imageWith parts symbols extras).found.zipIdx[3]? := by
    simp only [Elf.Image.found, imageWith, List.cons_append, List.mapIdx_cons]
    rfl
  have hentries : symbols.map (fun s => (Elf.bindOf s.info).toNat)
      = (m.localSymbols parts ++ more).map fun s => (Elf.bindOf s.info).toNat := by
    refine (map_eq_map_of_forall₂ (forall₂_of_getElem? ?_ fun i s hs => ?_)).symm
    · rw [hnames.length_eq, length_symbolNames, List.length_append, hcount, hmore.length_eq]
    · obtain ⟨name, hplace⟩ := hall hs
      exact ⟨_, hplace, rfl⟩
  have hextras : more.map (fun s => (Elf.bindOf s.info).toNat)
      = m.symbolList.map fun s => (Elf.bindOf s.info).toNat := by
    refine map_eq_map_of_forall₂ (hmore.flip.imp fun made s hmade => ?_)
    rw [hmade.info]
  have hinfo : (UInt32.ofNat ((m.localSymbols parts).length + 1)).toNat
      = 3 * m.kernelList.length + 2 := by
    rw [hcount]
    exact UInt32.toNat_ofNat_of_lt' hlocals
  have hempty : (Elf.bindOf ({} : Elf.SymbolEntry).info).toNat = 0 := by decide
  rw [Elf.Image.bindings_of_written hb hlen (i := 2) rfl rfl rfl hfind, List.map_cons, hentries,
    List.map_append, hextras, map_bindOf_localSymbols hparts, hempty, ← List.cons_append,
    ← List.replicate_succ]
  exact congrArg (fun n => Except.ok (ElfFile.Bindings.mk n _)) hinfo

end Model

end CatalystAsm
