import CatalystAsm.Proofs.Container.Binary

/-!
# The windows of kernels

Each kernel has three symbols, which mark its metadata and its header in the read-only data and its
image among the kernel images. The offsets in the symbols are added up apart from the bytes that
they point at; `Model.windowsFrom` is that sum, and by induction over the kernels it agrees with
the bytes (`Model.windows_rodata`, `Model.windows_text`). A reader therefore finds in each window
exactly what belongs to the kernel, and the windows fill both sections
(`Model.kernel_windows_exact`).
-/

namespace CatalystAsm

/-! ## Slices and extents -/

/-- The bytes between others. -/
theorem ElfFile.bytesAt_append_left (before c after : Bytes) :
    bytesAt (before ++ (c ++ after)) before.length c.length = .ok c := by
  refine bytesAt_eq_ok_iff.mpr ⟨?_, rfl⟩
  rw [List.drop_left, List.take_left]

/-- The places of things that are put down three by three. -/
theorem getElem?_flatMap_three {α β : Type} (f g h : α → β) {l : List α} {i : Nat} {a : α}
    (hi : l[i]? = some a) :
    (l.flatMap fun a => [f a, g a, h a])[3 * i]? = some (f a) ∧
      (l.flatMap fun a => [f a, g a, h a])[3 * i + 1]? = some (g a) ∧
      (l.flatMap fun a => [f a, g a, h a])[3 * i + 2]? = some (h a) := by
  induction l generalizing i with
  | nil => simp at hi
  | cons b rest ih =>
    cases i with
    | zero =>
      cases hi
      exact ⟨rfl, rfl, rfl⟩
    | succ i => exact ih (by simpa using hi)

namespace Model

/-! ## Windows -/

/-- Where the symbols of a kernel point: its metadata and its header in the read-only data, and its
image among the kernel images, each an offset and a length. -/
structure KernelWindow where
  metadata : Nat × Nat
  kernel : Nat × Nat
  header : Nat × Nat
  deriving DecidableEq, Repr

/-- The windows of kernels whose read-only data and whose images start at the given offsets. -/
def windowsFrom (rodata text : Nat) : List KernelPart → List KernelWindow
  | [] => []
  | p :: rest =>
    { metadata := (rodata, p.metadata.length)
      kernel := (text, p.plan.size)
      header := (rodata + p.metadata.length, headerSize) } ::
    windowsFrom (rodata + p.metadata.length + headerSize) (text + p.plan.size) rest

/-- The symbol of a window, without its name. -/
def entryOf (kind : UInt8) (index : Nat) (window : Nat × Nat) : Elf.SymbolEntry where
  value := UInt64.ofNat window.1
  size := UInt64.ofNat window.2
  info := Elf.symbolInfo Elf.bindLocal kind
  index := index

theorem kernelSymbols_eq (rodata text : Nat) (parts : List KernelPart) :
    kernelSymbols rodata text parts = (windowsFrom rodata text parts).flatMap fun w =>
      [entryOf Elf.kindObject rodataIndex w.metadata, entryOf Elf.kindFunction textIndex w.kernel,
        entryOf Elf.kindObject rodataIndex w.header] := by
  induction parts generalizing rodata text with
  | nil => rfl
  | cons p rest ih =>
    rw [kernelSymbols, windowsFrom, List.flatMap_cons, ih]
    rfl

/-- The windows of metadata and headers hold these. -/
theorem windows_rodata {parts : List KernelPart} (h : ∀ p ∈ parts, p.header.length = headerSize)
    (start : Bytes) (text : Nat) :
    List.Forall₂ (fun p w =>
        ElfFile.bytesAt (start ++ parts.flatMap fun p => p.metadata ++ p.header)
          w.metadata.1 w.metadata.2 = .ok p.metadata ∧
        ElfFile.bytesAt (start ++ parts.flatMap fun p => p.metadata ++ p.header)
          w.header.1 w.header.2 = .ok p.header)
      parts (windowsFrom start.length text parts) := by
  induction parts generalizing start text with
  | nil => exact .nil
  | cons p rest ih =>
    have hheader := h p List.mem_cons_self
    -- what belongs to the first kernel goes over to the bytes before the others
    have hnext := ih (fun q hq => h q (List.mem_cons_of_mem p hq))
      (start ++ (p.metadata ++ p.header)) (text + p.plan.size)
    rw [List.length_append, List.length_append, hheader, ← Nat.add_assoc, List.append_assoc]
      at hnext
    refine .cons ⟨?_, ?_⟩ hnext
    · rw [List.flatMap_cons, List.append_assoc]
      exact ElfFile.bytesAt_append_left _ _ _
    · have hslice := ElfFile.bytesAt_append_left (start ++ p.metadata) p.header
        (rest.flatMap fun p => p.metadata ++ p.header)
      rw [List.length_append, hheader, List.append_assoc, ← List.append_assoc p.metadata] at hslice
      exact hslice

/-- The windows of images hold these. -/
theorem windows_text {parts : List KernelPart} {images : List Bytes}
    (h : List.Forall₂ (fun p c => p.plan.size = c.length) parts images) (start : Bytes)
    (rodata : Nat) :
    List.Forall₂ (fun c w =>
        ElfFile.bytesAt (start ++ images.flatten) w.kernel.1 w.kernel.2 = .ok c)
      images (windowsFrom rodata start.length parts) := by
  induction h generalizing start rodata with
  | nil => exact .nil
  | @cons p c rest others hsize _ ih =>
    have hnext := ih (start ++ c) (rodata + p.metadata.length + headerSize)
    rw [List.length_append, ← hsize, List.append_assoc] at hnext
    refine .cons ?_ hnext
    show ElfFile.bytesAt _ start.length p.plan.size = _
    rw [List.flatten_cons, hsize]
    exact ElfFile.bytesAt_append_left _ _ _

/-- The windows of metadata and headers follow one another. -/
theorem tiles_rodata {parts : List KernelPart} (h : ∀ p ∈ parts, p.header.length = headerSize)
    (rodata text : Nat) :
    Tiles rodata (rodata + (parts.flatMap fun p => p.metadata ++ p.header).length)
      ((windowsFrom rodata text parts).flatMap fun w => [w.metadata, w.header]) := by
  induction parts generalizing rodata text with
  | nil => exact rfl
  | cons p rest ih =>
    have hheader := h p List.mem_cons_self
    have hnext := ih (fun q hq => h q (List.mem_cons_of_mem p hq))
      (rodata + p.metadata.length + headerSize) (text + p.plan.size)
    refine ⟨rfl, rfl, ?_⟩
    rw [List.flatMap_cons, List.length_append, List.length_append, hheader, ← Nat.add_assoc,
      ← Nat.add_assoc]
    exact hnext

/-- The windows of images follow one another. -/
theorem tiles_text (rodata text : Nat) (parts : List KernelPart) :
    Tiles text (text + (parts.map (·.plan.size)).sum)
      ((windowsFrom rodata text parts).map (·.kernel)) := by
  induction parts generalizing rodata text with
  | nil => exact rfl
  | cons p rest ih =>
    refine ⟨rfl, ?_⟩
    rw [List.map_cons, List.sum_cons, ← Nat.add_assoc]
    exact ih _ _

/-! ## Symbols -/

/-- A number that fits a word is read back from a symbol. -/
theorem toNat_ofNat_mod_wordRange {n : Nat} {wide : Bool} (h : n < Elf.wordRange wide) :
    (UInt64.ofNat n).toNat % Elf.wordRange wide = n := by
  have hle : Elf.wordRange wide ≤ UInt64.size := by
    cases wide <;> decide
  rw [UInt64.toNat_ofNat_of_lt' (Nat.lt_of_lt_of_le h hle), Nat.mod_eq_of_lt h]

/-- The symbol of a window, as a reader finds it. -/
def symbolOfWindow (name : Bytes) (index : Nat) (window : Nat × Nat) : ElfFile.Symbol where
  name := name.takeWhile (· != 0)
  value := window.1
  size := window.2
  home := index

section

variable {m : Model} {parts : List KernelPart} {symbols : List Elf.SymbolEntry}
  {extras : List Elf.Section} {b : Bytes}

/-- A reader finds the file of a binary. -/
theorem ofBytes_of_written (hb : (m.imageWith parts symbols extras).plan.Written b)
    (hlen : b.length < ElfFile.lengthLimit)
    (hextras : List.Forall₂ (fun s made => NameAt m.sectionStrings made.header.name.toNat s.name)
      m.sectionList extras) :
    ElfFile.ofBytes b = .ok ((m.imageWith parts symbols extras).fileWith m.sectionNames b) := by
  have hprograms : ElfFile.bytesAt b 0
      (0 * (m.imageWith parts symbols extras).layout.programSize) = .ok [] := by
    rw [Nat.zero_mul]
    exact ElfFile.bytesAt_eq_ok_iff.mpr ⟨List.take_zero, rfl⟩
  exact Elf.Image.ofBytes_of_written hb hlen rfl rfl rfl (nameAt_imageSectionNames.1.append _)
    (names_imageWith hextras) hprograms (Or.inr rfl)

/-- A reader finds the symbols of a binary. -/
theorem symbols_of_written (hb : (m.imageWith parts symbols extras).plan.Written b) :
    ((m.imageWith parts symbols extras).fileWith m.sectionNames b).symbols
      = .ok ((symbols.map (·.bytes m.is64)).map
        (((m.imageWith parts symbols extras).fileWith m.sectionNames b).symbolOf m.strings)) := by
  have hfind : ((m.imageWith parts symbols extras).fileWith m.sectionNames b).sections.find?
      (·.type = 2)
        = ((m.imageWith parts symbols extras).fileWith m.sectionNames b).sections[3]? := by
    simp only [Elf.Image.fileWith, Elf.Image.found, imageWith, List.cons_append, List.mapIdx_cons]
    rfl
  exact Elf.Image.symbols_fileWith hb (i := 2) (j := 1) rfl rfl rfl hfind rfl rfl rfl
    (by decide : Elf.typeStrings.toNat ≠ 8) rfl

/-- A reader finds the symbol of a window in place, when the window fits a word. -/
theorem getElem?_window {f : ElfFile} (hf : f.highFirst = false) (hw : f.wide = m.is64)
    (hnames : List.Forall₂ (fun s name => NameAt m.strings s.name.toNat name) symbols m.symbolNames)
    (hlocals : ∀ {i : Nat} {s : Elf.SymbolEntry}, (m.localSymbols parts)[i]? = some s →
      ∃ name, symbols[i]? = some { s with name := name })
    {i index : Nat} {kind : UInt8} {window : Nat × Nat} {name : Bytes}
    (hi : (m.localSymbols parts)[i]? = some (entryOf kind index window))
    (hname : m.symbolNames[i]? = some name) (hindex : index < UInt16.size)
    (hfit : window.1 + window.2 < Elf.wordRange m.is64) :
    ((symbols.map (·.bytes m.is64)).map (f.symbolOf m.strings))[i]?
      = some (symbolOfWindow name index window) := by
  obtain ⟨place, hs⟩ := hlocals hi
  have hvalue : (UInt64.ofNat window.1).toNat % Elf.wordRange m.is64 = window.1 :=
    toNat_ofNat_mod_wordRange (by omega)
  have hsize : (UInt64.ofNat window.2).toNat % Elf.wordRange m.is64 = window.2 :=
    toNat_ofNat_mod_wordRange (by omega)
  rw [Elf.getElem?_symbolOf hf hw hnames hs hname]
  simp only [entryOf, hvalue, hsize, Nat.mod_eq_of_lt hindex, symbolOfWindow]

end

/-- The symbols of a kernel stand in the symbol table behind those of the kernels before it. -/
theorem getElem?_localSymbols {m : Model} {parts : List KernelPart} {i : Nat} {w : KernelWindow}
    (hw : (windowsFrom m.rodataStart.length 0 parts)[i]? = some w) :
    (m.localSymbols parts)[3 * i + 1]? = some (entryOf Elf.kindObject rodataIndex w.metadata) ∧
      (m.localSymbols parts)[3 * i + 2]? = some (entryOf Elf.kindFunction textIndex w.kernel) ∧
      (m.localSymbols parts)[3 * i + 3]? = some (entryOf Elf.kindObject rodataIndex w.header) := by
  rw [localSymbols, kernelSymbols_eq, List.getElem?_cons_succ, List.getElem?_cons_succ,
    List.getElem?_cons_succ]
  exact getElem?_flatMap_three _ _ _ hw

/-- So do their names. -/
theorem getElem?_symbolNames {m : Model} {i : Nat} {k : Kernel} (hk : m.kernelList[i]? = some k) :
    m.symbolNames[3 * i + 1]? = some (symbolName k "_metadata") ∧
      m.symbolNames[3 * i + 2]? = some (symbolName k "_kernel") ∧
      m.symbolNames[3 * i + 3]? = some (symbolName k "_header") := by
  have hi := (List.getElem?_eq_some_iff.mp hk).1
  have hlen := length_localNames m.kernelList
  rw [symbolNames, List.getElem?_append_left (by omega), List.getElem?_append_left (by omega),
    List.getElem?_append_left (by omega), localNames, List.getElem?_cons_succ,
    List.getElem?_cons_succ, List.getElem?_cons_succ]
  exact getElem?_flatMap_three _ _ _ hk

theorem length_windowsFrom (rodata text : Nat) (parts : List KernelPart) :
    (windowsFrom rodata text parts).length = parts.length := by
  induction parts generalizing rodata text with
  | nil => rfl
  | cons p rest ih => rw [windowsFrom, List.length_cons, List.length_cons, ih]

/-- Every kernel has a header of the fixed size. -/
theorem length_header {m : Model} {parts : List KernelPart} (hparts : m.kernelParts = .ok parts) :
    ∀ p ∈ parts, p.header.length = headerSize := by
  intro p hp
  obtain ⟨i, hi, rfl⟩ := List.getElem_of_mem hp
  have hforall := mapM_eq_ok_iff.mp hparts
  have hpart := hforall.get (hforall.length_eq ▸ hi) hi
  exact (congrArg List.length (kernelPart_eq_ok hpart).2.1).trans (Kernel.length_headerBytes _)

/-- The windows of a written binary fit a word, since the sizes of its sections do. -/
theorem windows_fit {m : Model} {parts : List KernelPart} {symbols : List Elf.SymbolEntry}
    {extras : List Elf.Section} {b : Bytes} (hparts : m.kernelParts = .ok parts)
    (hb : (m.imageWith parts symbols extras).plan.Written b)
    (hlen : b.length < ElfFile.lengthLimit) {w : KernelWindow}
    (hw : w ∈ windowsFrom m.rodataStart.length 0 parts) :
    w.metadata.1 + w.metadata.2 < Elf.wordRange m.is64 ∧
      w.kernel.1 + w.kernel.2 < Elf.wordRange m.is64 ∧
      w.header.1 + w.header.2 < Elf.wordRange m.is64 := by
  -- a window ends within its section, and the header of a section holds its size
  have hrodata : (m.rodata parts).length < Elf.wordRange m.is64 :=
    Elf.Image.size_lt_wordRange hb hlen (i := 3) rfl
  have htext : (parts.map (·.plan.size)).sum < Elf.wordRange m.is64 :=
    Elf.Image.size_lt_wordRange hb hlen (i := 4) rfl
  rw [rodata, List.length_append] at hrodata
  have htiles := tiles_rodata (length_header hparts) m.rodataStart.length 0
  have hkernel := (tiles_text m.rodataStart.length 0 parts).of_mem
    (List.mem_map_of_mem (f := (·.kernel)) hw)
  have hmetadata : w.metadata ∈ (windowsFrom m.rodataStart.length 0 parts).flatMap fun w =>
      [w.metadata, w.header] := List.mem_flatMap.mpr ⟨w, hw, by simp⟩
  have hheader : w.header ∈ (windowsFrom m.rodataStart.length 0 parts).flatMap fun w =>
      [w.metadata, w.header] := List.mem_flatMap.mpr ⟨w, hw, by simp⟩
  have := htiles.of_mem hmetadata
  have := htiles.of_mem hheader
  refine ⟨?_, ?_, ?_⟩ <;> omega

/-- The symbols of one kernel mark its metadata, its image and its header. -/
theorem exists_window {m : Model} {parts : List KernelPart} {symbols : List Elf.SymbolEntry}
    {extras : List Elf.Section} {images : List Bytes} {b : Bytes} {f : ElfFile}
    (hf : f.highFirst = false) (hw : f.wide = m.is64) (hparts : m.kernelParts = .ok parts)
    (hb : (m.imageWith parts symbols extras).plan.Written b)
    (hlen : b.length < ElfFile.lengthLimit)
    (hnames : List.Forall₂ (fun s name => NameAt m.strings s.name.toNat name) symbols m.symbolNames)
    (hlocals : ∀ {i : Nat} {s : Elf.SymbolEntry}, (m.localSymbols parts)[i]? = some s →
      ∃ name, symbols[i]? = some { s with name := name })
    (himages : List.Forall₂ (fun part c => part.plan.write = .ok c) parts images)
    {i : Nat} {k : Kernel} (hk : m.kernelList[i]? = some k) :
    let found := (symbols.map (·.bytes m.is64)).map (f.symbolOf m.strings)
    ∃ w image, (windowsFrom m.rodataStart.length 0 parts)[i]? = some w ∧
      images[i]? = some image ∧
      found[3 * i + 1]? = some (symbolOfWindow (symbolName k "_metadata") rodataIndex w.metadata) ∧
      found[3 * i + 2]? = some (symbolOfWindow (symbolName k "_kernel") textIndex w.kernel) ∧
      found[3 * i + 3]? = some (symbolOfWindow (symbolName k "_header") rodataIndex w.header) ∧
      ElfFile.bytesAt (m.rodata parts) w.metadata.1 w.metadata.2
        = .ok (k.metadataBytes m.device m.is64 (firstUniqueId + UInt32.ofNat i)) ∧
      ElfFile.bytesAt (m.rodata parts) w.header.1 w.header.2 = .ok k.headerBytes ∧
      w.header.2 = headerSize ∧
      ElfFile.bytesAt images.flatten w.kernel.1 w.kernel.2 = .ok image := by
  have hsizes := himages.imp fun _ _ hc => (Plan.written_of_write hc).length_eq.symm
  obtain ⟨part, hpart, hmade⟩ := exists_kernelPart hparts hk
  obtain ⟨w, hwindow, hmetadata, hheader⟩ := exists_getElem?_of_forall₂
    (windows_rodata (length_header hparts) m.rodataStart 0) hpart
  obtain ⟨image, himage, -⟩ := exists_getElem?_of_forall₂ himages hpart
  obtain ⟨w', hwindow', hkernel⟩ := exists_getElem?_of_forall₂
    (windows_text hsizes [] m.rodataStart.length) himage
  obtain rfl := Option.some.inj (hwindow.symm.trans hwindow')
  obtain ⟨hmetadataBytes, hheaderBytes, -⟩ := kernelPart_eq_ok hmade
  rw [hmetadataBytes] at hmetadata
  rw [hheaderBytes] at hheader
  have hheaderSize : w.header.2 = headerSize := by
    rw [← (ElfFile.bytesAt_eq_ok_iff.mp hheader).2, Kernel.length_headerBytes]
  obtain ⟨hentry, hentry', hentry''⟩ := getElem?_localSymbols hwindow
  obtain ⟨hname, hname', hname''⟩ := getElem?_symbolNames hk
  obtain ⟨hfit, hfit', hfit''⟩ := windows_fit hparts hb hlen (List.mem_of_getElem? hwindow)
  exact ⟨w, image, hwindow, himage,
    getElem?_window hf hw hnames hlocals hentry hname (by decide) hfit,
    getElem?_window hf hw hnames hlocals hentry' hname' (by decide) hfit',
    getElem?_window hf hw hnames hlocals hentry'' hname'' (by decide) hfit'',
    hmetadata, hheader, hheaderSize, hkernel⟩

theorem toUInt64_toUInt32_ofNat {n : Nat} (h : n < UInt32.size) :
    (UInt64.ofNat n).toUInt32.toUInt64 = UInt64.ofNat n := by
  have hle : UInt32.size ≤ UInt64.size := by decide
  have hn : (UInt64.ofNat n).toNat = n := UInt64.toNat_ofNat_of_lt' (Nat.lt_of_lt_of_le h hle)
  rw [← UInt64.toNat_inj, UInt32.toNat_toUInt64, UInt64.toNat_toUInt32, hn]
  exact Nat.mod_eq_of_lt h

/-- A narrow symbol table keeps all of the values and sizes of the symbols of a binary's own. -/
theorem localSymbols_narrow {m : Model} {parts : List KernelPart}
    {symbols : List Elf.SymbolEntry} {extras : List Elf.Section} {b : Bytes}
    (hparts : m.kernelParts = .ok parts)
    (hb : (m.imageWith parts symbols extras).plan.Written b)
    (hlen : b.length < ElfFile.lengthLimit) (hwide : m.is64 = false) {s : Elf.SymbolEntry}
    (hs : s ∈ m.localSymbols parts) :
    s.value.toUInt32.toUInt64 = s.value ∧ s.size.toUInt32.toUInt64 = s.size := by
  have hrange : Elf.wordRange m.is64 = UInt32.size := by
    rw [hwide]
    rfl
  have hentry {kind : UInt8} {index : Nat} {window : Nat × Nat}
      (hfit : window.1 + window.2 < Elf.wordRange m.is64) :
      (entryOf kind index window).value.toUInt32.toUInt64 = (entryOf kind index window).value ∧
        (entryOf kind index window).size.toUInt32.toUInt64
          = (entryOf kind index window).size :=
    ⟨toUInt64_toUInt32_ofNat (by omega), toUInt64_toUInt32_ofNat (by omega)⟩
  rw [localSymbols, kernelSymbols_eq] at hs
  rcases List.mem_cons.mp hs with rfl | hs
  · have hrodata : (m.rodata parts).length < Elf.wordRange m.is64 :=
      Elf.Image.size_lt_wordRange hb hlen (i := 3) rfl
    rw [rodata, rodataStart, List.length_append, List.length_append] at hrodata
    exact ⟨rfl, toUInt64_toUInt32_ofNat (by omega)⟩
  · obtain ⟨w, hw, hs⟩ := List.mem_flatMap.mp hs
    obtain ⟨hmetadata, hkernel, hheader⟩ := windows_fit hparts hb hlen hw
    simp only [List.mem_cons, List.not_mem_nil, or_false] at hs
    rcases hs with rfl | rfl | rfl
    · exact hentry hmetadata
    · exact hentry hkernel
    · exact hentry hheader

/-- **The windows of kernels are exact.** A reader finds three symbols for each kernel, which mark
its metadata, its image and its header and nothing else. The windows of metadata and headers follow
the compile options and the global data without a gap to the end of the read-only data, and those
of images fill their section. A narrow symbol table loses nothing of them. -/
theorem kernel_windows_exact {m : Model} {b : Bytes} (h : m.generate = .ok b)
    (hlen : m.is64 = true → b.length < ElfFile.lengthLimit) :
    ∃ (f : ElfFile) (found : List ElfFile.Symbol) (rodata text : Bytes) (images : List Bytes)
      (windows : List KernelWindow),
      ElfFile.ofBytes b = .ok f ∧ f.symbols = .ok found ∧
      (∃ s, f.sections[4]? = some s ∧ s.name = .ofString ".rodata" ∧ f.body s = .ok rodata) ∧
      (∃ s, f.sections[5]? = some s ∧ s.name = .ofString ".text" ∧ f.body s = .ok text) ∧
      m.kernelList.mapM m.kernelImage = .ok images ∧ windows.length = m.kernelList.length ∧
      -- the reader leaves out the empty symbol, which is number 0 of the table
      (∀ i k, m.kernelList[i]? = some k → ∃ w image, windows[i]? = some w ∧
        images[i]? = some image ∧
        found[3 * i + 1]? = some (symbolOfWindow (symbolName k "_metadata") 4 w.metadata) ∧
        found[3 * i + 2]? = some (symbolOfWindow (symbolName k "_kernel") 5 w.kernel) ∧
        found[3 * i + 3]? = some (symbolOfWindow (symbolName k "_header") 4 w.header) ∧
        ElfFile.bytesAt rodata w.metadata.1 w.metadata.2 = .ok
          (if k.useConfig then k.configMetadata m.device m.is64 (1025 + UInt32.ofNat i)
            else k.metadata.getD []) ∧
        ElfFile.bytesAt rodata w.header.1 w.header.2 = .ok k.headerBytes ∧ w.header.2 = 32 ∧
        ElfFile.bytesAt text w.kernel.1 w.kernel.2 = .ok image) ∧
      Tiles 0 rodata.length ((0, (m.compileOptions ++ m.globalData.getD []).length) ::
        windows.flatMap fun w => [w.metadata, w.header]) ∧
      ElfFile.bytesAt rodata 0 (m.compileOptions ++ m.globalData.getD []).length
        = .ok (m.compileOptions ++ m.globalData.getD []) ∧
      Tiles 0 text.length (windows.map (·.kernel)) ∧
      (windows.flatMap fun w => [w.metadata, w.header]).Pairwise (fun v w => v.1 + v.2 ≤ w.1) ∧
      (windows.map (·.kernel)).Pairwise (fun v w => v.1 + v.2 ≤ w.1) ∧
      (m.is64 = false → ∀ parts, m.kernelParts = .ok parts → ∀ s ∈ m.localSymbols parts,
        s.value.toUInt32.toUInt64 = s.value ∧ s.size.toUInt32.toUInt64 = s.size) := by
  obtain ⟨parts, im, hparts, him, hb⟩ := exists_image h
  obtain ⟨symbols, extras, rfl, hnames, hlocals, hextras⟩ := image_locals him
  obtain ⟨images, himages, hwrites, htext⟩ := exists_images hparts hb
  have hlen := Elf.Image.length_lt hb hlen
  have htiles := tiles_rodata (length_header hparts) m.rodataStart.length 0
  have htilesText := tiles_text m.rodataStart.length 0 parts
  have hrodataPiece : (m.imageWith parts symbols extras).sections[3]? = some _ := rfl
  have htextPiece : (m.imageWith parts symbols extras).sections[4]? = some _ := rfl
  have hrodataBytes := hb.bytesAt (Elf.Image.getElem?_body hrodataPiece) rfl
  have htextBytes := hb.bytesAt (Elf.Image.getElem?_body htextPiece) htext
  refine ⟨_, _, m.rodata parts, images.flatten, images, windowsFrom m.rodataStart.length 0 parts,
    ofBytes_of_written hb hlen (hextras.imp fun s made h => h.1), symbols_of_written hb,
    ⟨_, Elf.Image.getElem?_fileWith hrodataPiece rfl, ?_, ?_⟩,
    ⟨_, Elf.Image.getElem?_fileWith htextPiece rfl, ?_, ?_⟩,
    himages, ?_, ?_, ?_, ?_, ?_, htiles.pairwise, htilesText.pairwise, ?_⟩
  · show (Bytes.ofString ".rodata").takeWhile (· != 0) = _
    decide +kernel
  · exact ElfFile.body_eq_ok (by decide : Elf.typeProgBits.toNat ≠ 8) hrodataBytes
  · show (Bytes.ofString ".text").takeWhile (· != 0) = _
    decide +kernel
  · exact ElfFile.body_eq_ok (by decide : Elf.typeProgBits.toNat ≠ 8) htextBytes
  · rw [length_windowsFrom, length_parts hparts]
  · intro i k hk
    exact exists_window rfl rfl hparts hb hlen hnames hlocals hwrites hk
  · refine ⟨rfl, ?_⟩
    show Tiles (0 + m.rodataStart.length) _ _
    rw [Nat.zero_add, rodata, List.length_append]
    exact htiles
  · exact ElfFile.bytesAt_append_left [] m.rodataStart _
  · rw [List.length_flatten, ← map_length_images hwrites, ← Nat.zero_add (List.sum _)]
    exact htilesText
  · intro hwide parts' hparts' s hs
    obtain rfl := Except.ok.inj (hparts.symm.trans hparts')
    exact localSymbols_narrow hparts hb hlen hwide hs

theorem twoKernels_windows_exact :
    ∃ (b : Bytes) (f : ElfFile) (found : List ElfFile.Symbol) (windows : List KernelWindow),
      (twoKernels false).generate = .ok b ∧
      ((twoKernels false).is64 = true → b.length < ElfFile.lengthLimit) ∧
      ElfFile.ofBytes b = .ok f ∧ f.symbols = .ok found ∧ windows.length = 2 ∧
      (windows.flatMap fun w => [w.metadata, w.header]).Pairwise
        (fun v w => v.1 + v.2 ≤ w.1) := by
  obtain ⟨b, hb, hlen⟩ := exists_twoKernels false
  obtain ⟨f, found, -, -, -, windows, hf, hfound, -, -, -, hcount, -, -, -, -, hpairwise, -⟩ :=
    kernel_windows_exact hb fun _ => hlen
  exact ⟨b, f, found, windows, hb, fun _ => hlen, hf, hfound, hcount, hpairwise⟩

end Model

end CatalystAsm
