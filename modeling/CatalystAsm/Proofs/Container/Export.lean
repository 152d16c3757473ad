import CatalystAsm.Proofs.Container.Window

/-!
# Reading extra symbols and sections

A reader of a binary finds behind the symbols of the kernels an entry for each extra symbol, and
behind the fixed sections each extra section (`Model.exists_exports`). In the image of a kernel,
which the kernel's symbol marks, it finds those of the kernel (`Kernel.exists_exports`). An extra
symbol names its section by a tag; the entry holds the number of that section.
-/

namespace CatalystAsm

namespace ElfFile

/-- An ELF file with its symbols. -/
def withSymbols (content : Bytes) : Except Fault (ElfFile × List Symbol) := do
  let f ← ofBytes content
  let found ← f.symbols
  return (f, found)

theorem withSymbols_eq_ok {content : Bytes} {f : ElfFile} {found : List Symbol}
    (hf : ofBytes content = .ok f) (hfound : f.symbols = .ok found) :
    withSymbols content = .ok (f, found) := by
  rw [withSymbols, hf, ok_bind, hfound, ok_bind]
  rfl

/-- The bytes that a symbol marks in its section. -/
def marked (f : ElfFile) (s : Symbol) : Except Fault Bytes :=
  match f.sections[s.home]? with
  | none => .error (.other "no such section")
  | some home => do
    let c ← f.body home
    bytesAt c s.value s.size

/-- A section of a file has a body whose length fits a word. -/
def HasBody (f : ElfFile) (i : Nat) (c : Bytes) : Prop :=
  (∃ s, f.sections[i]? = some s ∧ f.body s = .ok c) ∧ c.length < Elf.wordRange f.wide

/-- An entry of a symbol table stands for an extra symbol: with its name up to a zero byte, its
value as far as a word holds it, and the number of the section that its tag means. -/
structure Symbol.Shows (indexOf : SectionTag → Option Nat) (wide : Bool) (s : ExtraSymbol)
    (e : Symbol) : Prop where
  name : e.name = s.name.takeWhile (· != 0)
  value : e.value = s.value.toNat % Elf.wordRange wide
  home : ∃ index, indexOf s.home = some index ∧ e.home = index % UInt16.size

end ElfFile

theorem forall₂_of_getElem? {α β : Type} {R : α → β → Prop} {l : List α} {r : List β}
    (hlen : l.length = r.length)
    (h : ∀ (i : Nat) (a : α), l[i]? = some a → ∃ b, r[i]? = some b ∧ R a b) :
    List.Forall₂ R l r := by
  refine List.forall₂_iff_get.mpr ⟨hlen, fun i hl hr => ?_⟩
  obtain ⟨b, hb, hR⟩ := h i l[i] (List.getElem?_eq_getElem hl)
  rw [List.getElem?_eq_getElem hr] at hb
  cases hb
  exact hR

namespace Elf

/-- A reader finds an extra symbol at the place of its entry. -/
theorem exists_shows {f : ElfFile} {wide : Bool} (hf : f.highFirst = false) (hw : f.wide = wide)
    {symbols : List SymbolEntry} {names : List Bytes} {strings : Bytes}
    (hnames : List.Forall₂ (fun s name => NameAt strings s.name.toNat name) symbols names)
    {indexOf : SectionTag → Option Nat} {i : Nat} {s : ExtraSymbol} {name : UInt32}
    {made : SymbolEntry} (hmade : made.Copies indexOf s)
    (hs : symbols[i]? = some { made with name := name }) (hname : names[i]? = some s.name) :
    ∃ e, ((symbols.map (·.bytes wide)).map (f.symbolOf strings))[i]? = some e ∧
      e.Shows indexOf wide s := by
  refine ⟨_, getElem?_symbolOf hf hw hnames hs hname, rfl, ?_, made.index, hmade.index, rfl⟩
  rw [hmade.value]

namespace Image

/-- The number of sections of a written image has 16 bits. -/
theorem length_sections_lt {im : Image} {b : Bytes} (hb : im.plan.Written b) :
    im.sections.length + 1 < UInt16.size := by
  obtain ⟨h, hh, -⟩ := exists_header hb
  obtain ⟨count, hcount, -⟩ := bind_eq_ok_iff.mp hh
  rw [← toNat_of_word16 hcount]
  exact count.toNat_lt

/-- A reader finds the body of a section. -/
theorem hasBody_fileWith {im : Image} {b : Bytes} {names : List Bytes} (hb : im.plan.Written b)
    (hlen : b.length < ElfFile.lengthLimit) {i : Nat} {s : Section} {name c : Bytes}
    (hs : im.sections[i]? = some s) (hname : names[i]? = some name)
    (htype : s.header.type.toNat ≠ 8) (hc : s.body.emit im.plan.placement = .ok c) :
    (im.fileWith names b).HasBody (i + 1) c := by
  have hbytes := hb.bytesAt (getElem?_body hs) hc
  refine ⟨⟨_, getElem?_fileWith hs hname, ElfFile.body_eq_ok htype hbytes⟩, ?_⟩
  rw [(ElfFile.bytesAt_eq_ok_iff.mp hbytes).2]
  exact size_lt_wordRange hb hlen hs

/-- A reader finds the extra sections of plain bytes behind the fixed ones. -/
theorem hasBody_extra (fixedNames : List Bytes) {im : Image} {b : Bytes}
    {fixed extras : List Section} {given : List ExtraSection} (hb : im.plan.Written b)
    (hlen : b.length < ElfFile.lengthLimit) (hsections : im.sections = fixed ++ extras)
    (hcount : fixedNames.length = fixed.length)
    (hextras : List.Forall₂ (fun s made => made.header.type = s.type ∧
      made.body = .ofBytes (s.data.getD [])) given extras) {i : Nat} {s : ExtraSection}
    (hs : given[i]? = some s) (htype : s.type = typeProgBits) :
    (im.fileWith (fixedNames ++ given.map (·.name)) b).HasBody (fixed.length + 1 + i)
      (s.data.getD []) := by
  obtain ⟨made, hmade, hmadeType, hbody⟩ := exists_getElem?_of_forall₂ hextras hs
  have hplace : im.sections[fixed.length + i]? = some made := by
    rw [hsections, List.getElem?_append_right (Nat.le_add_right _ i), Nat.add_sub_cancel_left,
      hmade]
  have hname : (fixedNames ++ given.map (·.name))[fixed.length + i]? = some s.name := by
    rw [← hcount, List.getElem?_append_right (Nat.le_add_right _ i), Nat.add_sub_cancel_left,
      List.getElem?_map, hs]
    rfl
  rw [Nat.add_right_comm]
  refine hasBody_fileWith hb hlen hplace hname ?_ (by rw [hbody]; rfl)
  rw [hmadeType, htype]
  decide

end Image

end Elf

/-! ## Tags -/

/-- Small tags are none of the tags at the top of the range. -/
theorem SectionTag.ofNat_ne {i : Nat} (hi : i < UInt16.size) {t : SectionTag}
    (ht : UInt16.size ≤ t.id.toNat) : (⟨UInt32.ofNat i⟩ : SectionTag) ≠ t := by
  rintro rfl
  have hle := Nat.mod_le i UInt32.size
  rw [UInt32.toNat_ofNat'] at ht
  exact absurd (Nat.le_trans ht hle) (Nat.not_le.mpr hi)

/-- The tag of an extra section of a binary means that section. -/
theorem Model.sectionIndex?_extra {n i : Nat} (hi : i < n) (hn : 7 + n < UInt16.size) :
    sectionIndex? n ⟨UInt32.ofNat i⟩ = some (7 + i) := by
  have hsmall : i < UInt16.size := by omega
  have hne {t : SectionTag} (ht : UInt16.size ≤ t.id.toNat) := SectionTag.ofNat_ne hsmall ht
  have hid : (UInt32.ofNat i).toNat = i :=
    UInt32.toNat_ofNat_of_lt' (Nat.lt_trans hsmall (by decide))
  unfold sectionIndex?
  rw [if_neg (hne (by decide)), if_neg (hne (by decide)), if_neg (hne (by decide)),
    if_neg (hne (by decide)), if_neg (hne (by decide)),
    if_neg (not_or.mpr ⟨hne (by decide), hne (by decide)⟩), if_neg (hne (by decide)),
    if_neg (hne (by decide)), hid, if_pos hi]

/-- The tag of an extra section of a kernel means that section. -/
theorem Kernel.sectionIndex?_extra {n i : Nat} (hi : i < n) (hn : 6 + n < UInt16.size) :
    sectionIndex? n ⟨UInt32.ofNat i⟩ = some (6 + i) := by
  have hsmall : i < UInt16.size := by omega
  have hne {t : SectionTag} (ht : UInt16.size ≤ t.id.toNat) := SectionTag.ofNat_ne hsmall ht
  have hid : (UInt32.ofNat i).toNat = i :=
    UInt32.toNat_ofNat_of_lt' (Nat.lt_trans hsmall (by decide))
  unfold sectionIndex?
  rw [if_neg (hne (by decide)), if_neg (hne (by decide)), if_neg (hne (by decide)),
    if_neg (hne (by decide)), if_neg (hne (by decide)), if_neg (hne (by decide)),
    if_neg (hne (by decide)), hid, if_pos hi]

/-! ## Kernel images -/

namespace Kernel

variable {k : Kernel} {device : UInt32} {notes : List CalNote} {b : Bytes}

/-- **A reader finds the extra parts of a kernel**: its symbols, its code, its data and its extra
sections of plain bytes. -/
theorem exists_exports (h : k.imageBytes device notes = .ok b) :
    ∃ f found, ElfFile.withSymbols b = .ok (f, found) ∧ f.wide = false ∧
      List.Forall₂ (ElfFile.Symbol.Shows (sectionIndex? k.sectionList.length) false) k.symbolList
        found ∧
      6 + k.sectionList.length < UInt16.size ∧ f.HasBody 2 k.codeBytes ∧ f.HasBody 3 k.dataBytes ∧
      ∀ i s, k.sectionList[i]? = some s → s.type = Elf.typeProgBits →
        f.HasBody (6 + i) (s.data.getD []) := by
  obtain ⟨im, him, hb⟩ := bind_eq_ok_iff.mp h
  obtain ⟨symbols, extras, rfl, hsymbols, hextras⟩ := image_eq_ok him
  have hb := Plan.written_of_write hb
  have hlen := Elf.Image.length_lt hb (fun hwide => by cases hwide)
  have hnames : List.Forall₂ (fun s name => NameAt k.strings s.name.toNat name) symbols
      (k.symbolList.map (·.name)) := by
    rw [List.forall₂_map_right_iff]
    exact (hsymbols.imp fun s made h => h.1).flip
  have hprograms : (k.imageWith device notes symbols extras).plan.pieces[1]? = some _ := rfl
  obtain ⟨-, hemit⟩ := hb.piece_at hprograms
  have hprograms := hb.bytesAt hprograms hemit
  rw [offset_imageWith (by decide)] at hprograms
  have hfile := Elf.Image.ofBytes_of_written hb hlen rfl rfl rfl
    (nameAt_imageSectionNames.1.append _) (names_imageWith (hextras.imp fun s made h => h.1))
    hprograms (Or.inl rfl)
  have hfind : ((k.imageWith device notes symbols extras).fileWith k.sectionNames b).sections.find?
      (·.type = 2)
        = ((k.imageWith device notes symbols extras).fileWith k.sectionNames b).sections[4]? := by
    simp only [Elf.Image.fileWith, Elf.Image.found, imageWith, List.cons_append, List.mapIdx_cons]
    rfl
  have hfound := Elf.Image.symbols_fileWith hb (i := 3) (j := 4) rfl rfl rfl hfind rfl rfl rfl
    (by decide : Elf.typeStrings.toNat ≠ 8) rfl
  have hcount := Elf.Image.length_sections_lt hb
  refine ⟨_, _, ElfFile.withSymbols_eq_ok hfile hfound, rfl, ?_, ?_, ?_, ?_, ?_⟩
  · refine forall₂_of_getElem? ?_ fun i s hs => ?_
    · rw [List.length_map, List.length_map, hsymbols.length_eq]
    · obtain ⟨made, hmade, -, hentry⟩ := exists_getElem?_of_forall₂ hsymbols hs
      refine Elf.exists_shows rfl rfl hnames hentry hmade ?_
      rw [List.getElem?_map, hs]
      rfl
  · simp only [imageWith, List.length_append, List.length_cons, List.length_nil,
      ← hextras.length_eq] at hcount
    omega
  · exact Elf.Image.hasBody_fileWith hb hlen (i := 1) rfl rfl
      (by decide : Elf.typeProgBits.toNat ≠ 8) rfl
  · exact Elf.Image.hasBody_fileWith hb hlen (i := 2) rfl rfl
      (by decide : Elf.typeProgBits.toNat ≠ 8) rfl
  · intro i s hs htype
    exact Elf.Image.hasBody_extra [.ofString ".shstrtab", .ofString ".text", .ofString ".data",
      .ofString ".symtab", .ofString ".strtab"] hb hlen rfl rfl
      (hextras.imp fun s made h => (Elf.extraSection_eq_ok h.2).2) hs htype

end Kernel

/-! ## Binaries -/

namespace Model

variable {m : Model} {b : Bytes}

/-- **A reader finds the extra parts of a binary** behind the symbols of its own, and the image of
each kernel where the kernel's symbol marks it. -/
theorem exists_exports (h : m.generate = .ok b)
    (hlen : m.is64 = true → b.length < ElfFile.lengthLimit) :
    ∃ f found, ElfFile.withSymbols b = .ok (f, found) ∧ f.wide = m.is64 ∧
      List.Forall₂ (ElfFile.Symbol.Shows (sectionIndex? m.sectionList.length) m.is64) m.symbolList
        (found.drop (3 * m.kernelList.length + 1)) ∧
      7 + m.sectionList.length < UInt16.size ∧
      (∀ i s, m.sectionList[i]? = some s → s.type = Elf.typeProgBits →
        f.HasBody (7 + i) (s.data.getD [])) ∧
      ∀ i k, m.kernelList[i]? = some k → ∃ e image, found[3 * i + 2]? = some e ∧
        f.marked e = .ok image ∧ m.kernelImage k = .ok image := by
  obtain ⟨parts, im, hparts, him, hb⟩ := exists_image h
  obtain ⟨symbols, extras, more, rfl, hnames, hmore, hall, hextras⟩ := image_symbols him
  obtain ⟨images, himages, hwrites, htext⟩ := exists_images hparts hb
  have hlen := Elf.Image.length_lt hb hlen
  have hlocals {i : Nat} {s : Elf.SymbolEntry} (hs : (m.localSymbols parts)[i]? = some s) :
      ∃ name, symbols[i]? = some { s with name := name } := by
    refine hall ?_
    rw [List.getElem?_append_left (List.getElem?_eq_some_iff.mp hs).1, hs]
  have hlength := length_localSymbols hparts
  have hcount := Elf.Image.length_sections_lt hb
  refine ⟨_, _, ElfFile.withSymbols_eq_ok
    (ofBytes_of_written hb hlen (hextras.imp fun s made h => h.1)) (symbols_of_written hb), rfl,
    ?_, ?_, ?_, ?_⟩
  · refine forall₂_of_getElem? ?_ fun i s hs => ?_
    · rw [List.length_drop, List.length_map, List.length_map, hnames.length_eq,
        length_symbolNames, Nat.add_sub_cancel_left]
    · -- in the table as in the list of names, the extra symbols stand behind those of the kernels
      obtain ⟨made, hmade, hentry⟩ := exists_getElem?_of_forall₂ hmore hs
      have hplace : (m.localSymbols parts ++ more)[3 * m.kernelList.length + 1 + i]?
          = some made := by
        rw [← hlength, List.getElem?_append_right (Nat.le_add_right _ i), Nat.add_sub_cancel_left,
          hmade]
      obtain ⟨name, hplace⟩ := hall hplace
      have hname : m.symbolNames[3 * m.kernelList.length + 1 + i]? = some s.name := by
        rw [symbolNames, ← length_localNames, List.getElem?_append_right (Nat.le_add_right _ i),
          Nat.add_sub_cancel_left, List.getElem?_map, hs]
        rfl
      rw [List.getElem?_drop]
      exact Elf.exists_shows rfl rfl hnames hentry hplace hname
  · simp only [imageWith, List.length_append, List.length_cons, List.length_nil,
      ← hextras.length_eq] at hcount
    omega
  · intro i s hs htype
    exact Elf.Image.hasBody_extra [.ofString ".shstrtab", .ofString ".strtab", .ofString ".symtab",
      .ofString ".rodata", .ofString ".text", .ofString ".comment"] hb hlen rfl rfl
      (hextras.imp fun s made h => (Elf.extraSection_eq_ok h.2).2) hs htype
  · intro i k hk
    obtain ⟨w, image, -, himage, -, hkernel, -, -, -, -, hmarked⟩ :=
      exists_window (f := (m.imageWith parts symbols extras).fileWith m.sectionNames b) rfl rfl
        hparts hb hlen hnames hlocals hwrites hk
    refine ⟨_, image, hkernel, ?_, ?_⟩
    · have htextBody : ((m.imageWith parts symbols extras).fileWith m.sectionNames b).HasBody
          textIndex images.flatten := Elf.Image.hasBody_fileWith hb hlen (i := 4) rfl rfl
        (by decide : Elf.typeProgBits.toNat ≠ 8) htext
      obtain ⟨⟨s, hs, hbody⟩, -⟩ := htextBody
      rw [ElfFile.marked, symbolOfWindow, hs]
      dsimp only
      rw [hbody, ok_bind]
      exact hmarked
    · obtain ⟨c, hc, hmade⟩ := exists_getElem?_of_forall₂ (mapM_eq_ok_iff.mp himages) hk
      rw [himage] at hc
      cases hc
      exact hmade

end Model

end CatalystAsm
