import CatalystAsm.Proofs.Container.Kernel

/-!
# Reading binaries

A reader of a binary finds the sections that it was made of, one after another from the file header
to the section header table, and the names of its sections and symbols
(`Model.generate_reads_back`).
-/

namespace CatalystAsm

namespace Model

/-! ## Kernels -/

/-- The image of a kernel of a binary, on its own. -/
def kernelImage (m : Model) (k : Kernel) : Except ImageError Bytes :=
  k.imageBytes m.device.id.toUInt32 (m.notesOf k)

/-- What the parts of a kernel are. -/
theorem kernelPart_eq_ok {m : Model} {i : Nat} {k : Kernel} {part : KernelPart}
    (h : m.kernelPart i k = .ok part) :
    part.metadata = k.metadataBytes m.device m.is64 (firstUniqueId + UInt32.ofNat i) ∧
      part.header = k.headerBytes ∧ part.plan.write = m.kernelImage k := by
  obtain ⟨image, himage, h⟩ := bind_eq_ok_iff.mp h
  cases h
  refine ⟨rfl, rfl, ?_⟩
  rw [kernelImage, Kernel.imageBytes, himage, ok_bind]

/-- The images of the kernels are what their parts write. -/
theorem mapM_kernelImage {m : Model} {parts : List KernelPart} {images : List Bytes}
    (hparts : m.kernelParts = .ok parts)
    (himages : List.Forall₂ (fun part c => part.plan.write = .ok c) parts images) :
    m.kernelList.mapM m.kernelImage = .ok images := by
  have hkernels : m.kernelList = m.kernelList.zipIdx.map Prod.fst := by
    rw [List.zipIdx_map_fst]
  rw [mapM_eq_ok_iff, hkernels, List.forall₂_map_left_iff]
  refine forall₂_trans (fun {e part c} hpart hc => ?_) (mapM_eq_ok_iff.mp hparts) himages
  rw [← (kernelPart_eq_ok hpart).2.2, hc]

/-- The read-only data are the compile options, the global data, and the metadata and the header
of each kernel. -/
theorem rodata_eq {m : Model} {parts : List KernelPart} (hparts : m.kernelParts = .ok parts) :
    m.rodata parts = m.compileOptions ++ m.globalData.getD [] ++
      m.kernelList.zipIdx.flatMap fun e =>
        e.1.metadataBytes m.device m.is64 (firstUniqueId + UInt32.ofNat e.2) ++
          e.1.headerBytes := by
  rw [rodata, rodataStart, List.flatMap_def, List.flatMap_def]
  congr 2
  refine (map_eq_map_of_forall₂ ((mapM_eq_ok_iff.mp hparts).imp fun e part hpart => ?_)).symm
  obtain ⟨hmetadata, hheader, -⟩ := kernelPart_eq_ok hpart
  rw [hmetadata, hheader]

theorem length_parts {m : Model} {parts : List KernelPart} (hparts : m.kernelParts = .ok parts) :
    parts.length = m.kernelList.length := by
  rw [← (mapM_eq_ok_iff.mp hparts).length_eq, List.length_zipIdx]

/-! ## Images -/

/-- The strings of a binary. -/
def strings (m : Model) : Bytes := Elf.stringTable [0] m.symbolNames

/-- The section names of a binary. -/
def sectionStrings (m : Model) : Bytes :=
  Elf.stringTable imageSectionNames (m.sectionList.map (·.name))

/-- The names of the sections of a binary, without the empty one. -/
def sectionNames (m : Model) : List Bytes :=
  [.ofString ".shstrtab", .ofString ".strtab", .ofString ".symtab", .ofString ".rodata",
    .ofString ".text", .ofString ".comment"] ++ m.sectionList.map (·.name)

/-- Each kernel has three symbols. -/
theorem length_kernelSymbols (rodata text : Nat) (parts : List KernelPart) :
    (kernelSymbols rodata text parts).length = 3 * parts.length := by
  induction parts generalizing rodata text with
  | nil => rfl
  | cons p rest ih =>
    rw [kernelSymbols, List.length_append, ih, List.length_cons]
    simp only [List.length_cons, List.length_nil]
    omega

/-- Local symbols are those of the compile options and three for each kernel. -/
theorem length_localSymbols {m : Model} {parts : List KernelPart}
    (hparts : m.kernelParts = .ok parts) :
    (m.localSymbols parts).length = 3 * m.kernelList.length + 1 := by
  rw [localSymbols, List.length_cons, length_kernelSymbols, length_parts hparts]

/-- There is a name for each local symbol. -/
theorem length_localNames (kernels : List Kernel) :
    (localNames kernels).length = 3 * kernels.length + 1 := by
  rw [localNames, List.length_cons]
  congr 1
  induction kernels with
  | nil => rfl
  | cons k rest ih =>
    rw [List.flatMap_cons, List.length_append, ih, List.length_cons]
    simp only [kernelNames, List.length_cons, List.length_nil]
    omega

theorem length_symbolNames (m : Model) :
    m.symbolNames.length = 3 * m.kernelList.length + 1 + m.symbolList.length := by
  rw [symbolNames, List.length_append, length_localNames, List.length_map]

/-- What a binary is made of: the symbols of its own and the extra symbols with their names, and a
section for each extra section. -/
theorem image_symbols {m : Model} {parts : List KernelPart} {im : Elf.Image}
    (h : m.image = .ok (parts, im)) :
    ∃ symbols extras more, im = m.imageWith parts symbols extras ∧
      List.Forall₂ (fun s name => NameAt m.strings s.name.toNat name) symbols m.symbolNames ∧
      List.Forall₂ (Elf.SymbolEntry.Copies (sectionIndex? m.sectionList.length)) m.symbolList
        more ∧
      (∀ {i : Nat} {s : Elf.SymbolEntry}, (m.localSymbols parts ++ more)[i]? = some s →
        ∃ name, symbols[i]? = some { s with name := name }) ∧
      List.Forall₂ (fun s made => NameAt m.sectionStrings made.header.name.toNat s.name ∧
        m.imageSection s made.header.name = .ok made) m.sectionList extras := by
  obtain ⟨hparts, sectionNames, names, more, extras, hsections, hlocals, hmore, hextras, rfl⟩ :=
    image_eq_ok h
  obtain ⟨hothers, hcopies⟩ := Elf.extraSymbols_eq_ok hmore
  have hnames := Elf.nameAt_stringTable [0] (Elf.nameOffsets_append hlocals hothers)
  -- there are as many names as symbols, so that none is left out when they are put together
  have hlen : names.length = (m.localSymbols parts).length := by
    rw [(Elf.ends_nameOffsets _ _).of_eq_ok hlocals, length_localNames, length_localSymbols hparts]
  refine ⟨_, extras, more, rfl, ?_, hcopies, ?_, ?_⟩
  · rw [← Elf.map_name_named hlen, ← List.map_append, List.forall₂_map_left_iff] at hnames
    exact hnames
  · intro i s hs
    have hcount := Elf.length_named hlen
    by_cases hi : i < (m.localSymbols parts).length
    · rw [List.getElem?_append_left hi] at hs
      rw [List.getElem?_append_left (hcount ▸ hi)]
      exact Elf.exists_named hlen hs
    · have hge := Nat.le_of_not_lt hi
      rw [List.getElem?_append_right hge] at hs
      rw [List.getElem?_append_right (hcount ▸ hge), hcount]
      exact ⟨s.name, hs⟩
  · exact Elf.nameAt_of_mapM (fun h => (Elf.extraSection_eq_ok h).1) imageSectionNames
      hsections hextras

/-- What a binary is made of, without the extra symbols. -/
theorem image_locals {m : Model} {parts : List KernelPart} {im : Elf.Image}
    (h : m.image = .ok (parts, im)) :
    ∃ symbols extras, im = m.imageWith parts symbols extras ∧
      List.Forall₂ (fun s name => NameAt m.strings s.name.toNat name) symbols m.symbolNames ∧
      (∀ {i : Nat} {s : Elf.SymbolEntry}, (m.localSymbols parts)[i]? = some s →
        ∃ name, symbols[i]? = some { s with name := name }) ∧
      List.Forall₂ (fun s made => NameAt m.sectionStrings made.header.name.toNat s.name ∧
        m.imageSection s made.header.name = .ok made) m.sectionList extras := by
  obtain ⟨symbols, extras, more, him, hnames, -, hall, hextras⟩ := image_symbols h
  refine ⟨symbols, extras, him, hnames, fun hs => hall ?_, hextras⟩
  rw [List.getElem?_append_left (List.getElem?_eq_some_iff.mp hs).1, hs]

/-- A generated binary is a written image of the parts of its kernels. -/
theorem exists_image {m : Model} {b : Bytes} (h : m.generate = .ok b) :
    ∃ parts im, m.kernelParts = .ok parts ∧ m.image = .ok (parts, im) ∧ im.plan.Written b := by
  obtain ⟨p, hp, hb⟩ := generate_eq_ok h
  obtain ⟨parts, im, -, him, rfl⟩ := plan_eq_ok hp
  exact ⟨parts, im, (image_eq_ok him).1, him, Plan.written_of_write hb⟩

section

variable {m : Model} {parts : List KernelPart} {symbols : List Elf.SymbolEntry}
  {extras : List Elf.Section} {b : Bytes}

/-- The kernel images of a written binary. -/
theorem exists_images (hparts : m.kernelParts = .ok parts)
    (hb : (m.imageWith parts symbols extras).plan.Written b) :
    ∃ images, m.kernelList.mapM m.kernelImage = .ok images ∧
      List.Forall₂ (fun part c => part.plan.write = .ok c) parts images ∧
      writeImages parts = .ok images.flatten := by
  have hpiece : (m.imageWith parts symbols extras).plan.pieces[textIndex]?
      = some (imagesPiece parts) := rfl
  obtain ⟨-, hemit⟩ := hb.piece_at hpiece
  obtain ⟨images, hflat, himages⟩ := writeImages_eq_ok hemit
  rw [← hflat] at hemit
  exact ⟨images, mapM_kernelImage hparts himages, himages, hemit⟩

/-- The bodies of the sections of a binary. -/
theorem bodies_imageWith {text : Bytes} (htext : writeImages parts = .ok text)
    (hextras : List.Forall₂ (fun s made => made.body = .ofBytes (s.data.getD [])) m.sectionList
      extras) :
    List.Forall₂ (fun s c => s.body.emit (m.imageWith parts symbols extras).plan.placement = .ok c)
      (m.imageWith parts symbols extras).sections
      ([m.sectionStrings, m.strings, (({} : Elf.SymbolEntry) :: symbols).flatMap (·.bytes m.is64),
        m.rodata parts, text, m.driver.1] ++ m.sectionList.map (·.data.getD [])) :=
  .cons rfl (.cons rfl (.cons rfl (.cons rfl (.cons htext (.cons rfl
    (Elf.bodies_extras hextras))))))

/-- The names of the fixed sections stand where their headers say. -/
theorem nameAt_imageSectionNames :
    NameAt imageSectionNames 0 [] ∧ NameAt imageSectionNames 1 (.ofString ".shstrtab") ∧
      NameAt imageSectionNames 11 (.ofString ".strtab") ∧
      NameAt imageSectionNames 19 (.ofString ".symtab") ∧
      NameAt imageSectionNames 27 (.ofString ".rodata") ∧
      NameAt imageSectionNames 35 (.ofString ".text") ∧
      NameAt imageSectionNames 41 (.ofString ".comment") := by
  decide +kernel

/-- Every section of a binary has its name in the table of section names. -/
theorem names_imageWith
    (hextras : List.Forall₂ (fun s made => NameAt m.sectionStrings made.header.name.toNat s.name)
      m.sectionList extras) :
    List.Forall₂ (fun s name => NameAt m.sectionStrings s.header.name.toNat name)
      (m.imageWith parts symbols extras).sections m.sectionNames := by
  obtain ⟨-, h1, h11, h19, h27, h35, h41⟩ := nameAt_imageSectionNames
  refine .cons (h1.append _) (.cons (h11.append _) (.cons (h19.append _) (.cons (h27.append _)
    (.cons (h35.append _) (.cons (h41.append _) ?_)))))
  show List.Forall₂ _ extras (m.sectionList.map (·.name))
  rw [List.forall₂_map_right_iff]
  exact hextras.flip

end

/-- **A binary reads back.** Its file header, the bodies of its sections and its section header
table fill the file one after another; the sections hold what they were made of, and each section
header and each symbol points at its name. A wide binary is taken to have a length that a file can
have. -/
theorem generate_reads_back {m : Model} {b : Bytes} (h : m.generate = .ok b)
    (hlen : m.is64 = true → b.length < ElfFile.lengthLimit) :
    ∃ (f : ElfFile) (l : ElfFile.Layout) (found : List (ElfFile.Section × Nat))
      (images : List Bytes) (symbols : Bytes),
      ElfFile.tables b = .ok (f, l, found) ∧ f.wide = m.is64 ∧ f.highFirst = false ∧
      l.sectionCount = 7 + m.sectionList.length ∧ l.names = 1 ∧
      Tiles 0 b.length (f.extents l found) ∧
      m.kernelList.mapM m.kernelImage = .ok images ∧
      List.Forall₂ (fun e c => ElfFile.bytesAt b e.1.offset e.1.size = .ok c) (found.drop 1)
        ([m.sectionStrings, m.strings, symbols,
          m.compileOptions ++ m.globalData.getD [] ++ m.kernelList.zipIdx.flatMap fun e =>
            e.1.metadataBytes m.device m.is64 (1025 + UInt32.ofNat e.2) ++ e.1.headerBytes,
          images.flatten, (DriverInfo.resolve m.driverInfo m.driverVersion).1] ++
          m.sectionList.map (·.data.getD [])) ∧
      List.Forall₂ (fun e name => NameAt m.sectionStrings e.2 name) found ([] :: m.sectionNames) ∧
      List.Forall₂ (fun record name => NameAt m.strings (f.number record 0 4) name)
        (f.symbolRecords symbols) ([] :: m.symbolNames) := by
  obtain ⟨parts, im, hparts, him, hb⟩ := exists_image h
  obtain ⟨symbols, extras, rfl, hnames, -, hextras⟩ := image_locals him
  obtain ⟨images, himages, -, htext⟩ := exists_images hparts hb
  have hbodies := Elf.Image.bodies_found hb
    (bodies_imageWith htext (hextras.imp fun s made h => (Elf.extraSection_eq_ok h.2).2.2))
  rw [rodata_eq hparts] at hbodies
  refine ⟨_, _, _, images, _, Elf.Image.tables_of_written hb (Elf.Image.length_lt hb hlen)
      (List.cons_ne_nil _ _), rfl, rfl, ?_, rfl, Elf.Image.tiles_extents hb rfl, himages, hbodies,
    Elf.Image.names_found (nameAt_imageSectionNames.1.append _)
      (names_imageWith (hextras.imp fun s made h => h.1)),
    Elf.names_symbolRecords rfl rfl (.cons ⟨_, rfl⟩ hnames)⟩
  show (m.imageWith parts symbols extras).sections.length + 1 = _
  simp only [imageWith, List.length_append, List.length_cons, List.length_nil, hextras.length_eq]
  omega

/-- A binary with a given and a configured kernel, an extra section and an extra symbol. -/
def twoKernels (wide : Bool) : Model where
  is64 := wide
  driverInfo := .ofString "AMD-APP (1800.11)"
  compileOptions := .ofString "-O2"
  globalData := some [1, 2, 3]
  kernels := some [
    { name := .ofString "copy", data := some [], code := some [0x7f], metadata := some [],
      notes := some [{ type := .progInfo, data := some [5] }, { type := .progInfo }] },
    { name := .ofString "scale", data := some [9], code := some [1, 2], useConfig := true }]
  extraSections := some [{ name := .ofString ".note", data := some [7, 7] }]
  extraSymbols := some [{ name := .ofString "end", value := 3, home := .rodata }]

/-- The two kernels make a binary that a reader can hold. -/
theorem exists_twoKernels (wide : Bool) :
    ∃ b, (twoKernels wide).generate = .ok b ∧ b.length < ElfFile.lengthLimit := by
  have h : (match (twoKernels wide).generate with
      | .ok b => decide (b.length < ElfFile.lengthLimit)
      | .error _ => false) = true := by
    cases wide <;> decide +kernel
  split at h
  · rename_i b hb
    exact ⟨b, hb, of_decide_eq_true h⟩
  · cases h

/-- The sections of the binary follow one another without a gap. -/
theorem twoKernels_reads_back :
    ∃ b f l found, (twoKernels true).generate = .ok b ∧ b.length < ElfFile.lengthLimit ∧
      ElfFile.tables b = .ok (f, l, found) ∧ l.sectionCount = 8 ∧
      Tiles 0 b.length (f.extents l found) := by
  obtain ⟨b, hb, hlen⟩ := exists_twoKernels true
  obtain ⟨f, l, found, -, -, htables, -, -, hcount, -, htiles, -⟩ :=
    generate_reads_back hb fun _ => hlen
  exact ⟨b, f, l, found, hb, hlen, htables, hcount, htiles⟩

end Model

end CatalystAsm
