import CatalystAsm.Container.Binary
import CatalystAsm.Proofs.Container.Layout

/-!
# Sizes of binaries

Every piece of a binary and of the kernel images in it is exact: the header and the tables of an
ELF image (`Elf.Image.exact_plan`), the program headers, the encoding entry and the notes of a
kernel image (`Kernel.ends_image`), and the kernel images as a piece of the binary
(`Model.ends_image`). So the planned size is the size of what is written, and a binary that
cannot be made was refused or has a number that does not fit its field
(`Model.generate_follows_plan`).
-/

namespace CatalystAsm

/-- A number is stored in 32 bits as it is, or it does not fit. -/
theorem ends_word32 (field : ImageField) (n : Nat) :
    Ends (fun e => e.isOverflow = true) (fun v => v.toNat = n) (word32 field n) := by
  unfold word32
  split
  · exact UInt32.toNat_ofNat_of_lt' ‹_›
  · exact rfl

/-- A number is stored in 16 bits as it is, or it does not fit. -/
theorem ends_word16 (field : ImageField) (n : Nat) :
    Ends (fun e => e.isOverflow = true) (fun v => v.toNat = n) (word16 field n) := by
  unfold word16
  split
  · exact UInt16.toNat_ofNat_of_lt' ‹_›
  · exact rfl

/-! ## ELF images -/

namespace Elf

@[simp] theorem length_symbolBytes (wide : Bool) (s : SymbolEntry) :
    (s.bytes wide).length = symbolLength wide := by
  cases wide <;> simp [SymbolEntry.bytes, symbolLength]

/-- A symbol table has the size that is planned for it. -/
theorem exact_symbolTable (wide : Bool) (symbols : List SymbolEntry) :
    (symbolTable wide symbols).Exact := by
  intro places
  show (symbols.flatMap (·.bytes wide)).length = symbols.length * symbolLength wide
  induction symbols with
  | nil => rw [List.flatMap_nil, List.length_nil, List.length_nil, Nat.zero_mul]
  | cons s rest ih =>
    rw [List.flatMap_cons, List.length_append, ih, length_symbolBytes, List.length_cons,
      Nat.add_mul, Nat.one_mul, Nat.add_comm]

/-- A section header has its fixed length. -/
theorem writes_sectionHeader (wide : Bool) (s : SectionHeader) (off size : Nat) :
    Writes (sectionHeaderLength wide) (s.bytes wide off size) := by
  cases wide with
  | true =>
    show List.length _ = sectionHeaderLength true
    simp [sectionHeaderLength]
  | false =>
    refine (ends_word32 _ off).bind fun _ _ => ?_
    refine (ends_word32 _ size).bind fun _ _ => ?_
    refine (ends_word32 _ s.align.toNat).bind fun _ _ => ?_
    refine (ends_word32 _ s.entrySize.toNat).bind fun _ _ => ?_
    show List.length _ = sectionHeaderLength false
    simp [sectionHeaderLength]

namespace Image

/-- The header of an image has its fixed length. -/
theorem writes_headerBytes (im : Image) (tableOffset : Nat) :
    Writes (headerLength im.wide) (im.headerBytes tableOffset) := by
  unfold headerBytes
  refine (ends_word16 _ _).bind fun _ _ => ?_
  refine (ends_word16 _ _).bind fun _ _ => ?_
  cases hw : im.wide with
  | true =>
    show List.length _ = headerLength true
    simp [headerLength, ident]
  | false =>
    refine (ends_word32 _ tableOffset).bind fun _ _ => ?_
    show List.length _ = headerLength false
    simp [headerLength, ident]

/-- Section headers one after another, each with its fixed length. -/
theorem writes_tableFrom (wide : Bool) (places : Placement) (piece : Nat)
    (sections : List Section) :
    Writes (sections.length * sectionHeaderLength wide)
      (tableFrom wide places piece sections) := by
  induction sections generalizing piece with
  | nil =>
    show List.length [] = _
    rw [List.length_nil, List.length_nil, Nat.zero_mul]
  | cons s rest ih =>
    refine (writes_sectionHeader wide s.header _ _).bind fun b hb => ?_
    refine (ih (piece + 1)).bind fun c hc => ?_
    show (b ++ c).length = _
    rw [List.length_append, hb, hc, List.length_cons, Nat.add_mul, Nat.one_mul, Nat.add_comm]

/-- The section header table has one entry more than there are sections. -/
theorem writes_tableBytes (im : Image) (places : Placement) :
    Writes ((im.sections.length + 1) * sectionHeaderLength im.wide) (im.tableBytes places) := by
  refine (writes_sectionHeader im.wide {} 0 0).bind fun b hb => ?_
  refine (writes_tableFrom im.wide places (im.bodyPiece 0) im.sections).bind fun c hc => ?_
  show (b ++ c).length = _
  rw [List.length_append, hb, hc, Nat.add_mul, Nat.one_mul, Nat.add_comm]

/-- The plan of an image is exact when its own pieces and its section bodies are. -/
theorem exact_plan {im : Image} (hfront : ∀ piece ∈ im.front, piece.Exact)
    (hbody : ∀ s ∈ im.sections, s.body.Exact) : im.plan.Exact := by
  intro piece hp
  simp only [plan, List.mem_append, List.mem_singleton, List.mem_map] at hp
  rcases hp with ((rfl | hp) | ⟨s, hs, rfl⟩) | rfl
  · exact fun places => im.writes_headerBytes _
  · exact hfront piece hp
  · exact hbody s hs
  · exact im.writes_tableBytes

end Image

/-- Each name has its offset, or the string table is too long. -/
theorem ends_nameOffsets (start : Nat) (names : List Bytes) :
    Ends (fun e => e.isOverflow = true) (fun offs => offs.length = names.length)
      (nameOffsets start names) := by
  induction names generalizing start with
  | nil => exact rfl
  | cons name rest ih =>
    refine (ends_word32 _ start).bind fun _ _ => ?_
    refine (ih (start + name.length + 1)).bind fun offs hoffs => ?_
    exact congrArg (· + 1) hoffs

/-- Names that are put behind others start where those end. -/
theorem nameOffsets_append {start : Nat} {names more : List Bytes} {offs others : List UInt32}
    (h : nameOffsets start names = .ok offs)
    (hmore : nameOffsets (start + namesLength names) more = .ok others) :
    nameOffsets start (names ++ more) = .ok (offs ++ others) := by
  induction names generalizing start offs with
  | nil =>
    cases h
    exact hmore
  | cons name rest ih =>
    obtain ⟨off, hoff, h⟩ := bind_eq_ok_iff.mp h
    obtain ⟨behind, hbehind, h⟩ := bind_eq_ok_iff.mp h
    cases h
    have hlength : start + namesLength (name :: rest)
        = start + name.length + 1 + namesLength rest := by
      show start + (name.length + 1 + namesLength rest) = _
      omega
    rw [hlength] at hmore
    rw [List.cons_append, nameOffsets, hoff, ok_bind, ih hbehind hmore, ok_bind]
    rfl

end Elf

theorem ImageError.isOverflow_iff {e : ImageError} :
    e.isOverflow = true ↔ ∃ field, e = .overflow field := by
  cases e <;> simp [ImageError.isOverflow]

theorem ImageError.isOverflow_eq_false {e : ImageError}
    (h : e.isInvalid = true ∨ e.isUnmapped = true) : e.isOverflow = false := by
  cases e <;> simp_all [ImageError.isInvalid, ImageError.isUnmapped, ImageError.isOverflow]

/-- The errors of planning an image: a section that it does not have, or a number that does not fit
its field. -/
def ImageError.IsPlanning (e : ImageError) : Prop := e.isUnmapped = true ∨ e.isOverflow = true

/-- Planning goes on after string tables whose names fit. -/
theorem ends_nameOffsets_planning (start : Nat) (names : List Bytes) :
    Ends ImageError.IsPlanning (fun offs => offs.length = names.length)
      (Elf.nameOffsets start names) :=
  (Elf.ends_nameOffsets start names).mono (fun _ he => Or.inr he) fun _ h => h

namespace Elf

variable (indexOf : SectionTag → Option Nat) (use : TagUse)

/-- The section of a symbol has a number, or it is not in the image. -/
theorem ends_homeIndex (s : ExtraSymbol) :
    Ends ImageError.IsPlanning (fun _ => True) (homeIndex indexOf use s) := by
  unfold homeIndex
  split
  · exact Or.inl rfl
  · exact trivial

/-- Extra symbols are planned, or planning ends with an error of its own. -/
theorem ends_extraSymbols (use : ExtraSymbol → TagUse) (start : Nat) (l : List ExtraSymbol) :
    Ends ImageError.IsPlanning (fun _ => True) (extraSymbols indexOf use start l) := by
  induction l generalizing start with
  | nil => exact trivial
  | cons s rest ih =>
    refine (ends_homeIndex indexOf (use s) s).bind fun _ _ => ?_
    refine ((ends_word32 _ start).mono (fun _ he => Or.inr he) fun _ h => h).bind fun _ _ => ?_
    exact (ih (start + s.name.length + 1)).bind fun _ _ => trivial

/-- The section that an extra section is linked to has a number, or it is not in the image. -/
theorem ends_linkIndex (s : ExtraSection) :
    Ends ImageError.IsPlanning (fun _ => True) (linkIndex indexOf use s) := by
  unfold linkIndex
  split
  · exact trivial
  · split
    · exact Or.inl rfl
    · exact trivial

/-- An extra section is planned with the size of its bytes. -/
theorem ends_extraSection (s : ExtraSection) (name : UInt32) :
    Ends ImageError.IsPlanning (fun made => made.body.Exact)
      (extraSection indexOf use s name) :=
  (ends_linkIndex indexOf use s).bind fun _ _ => Piece.exact_ofBytes _

end Elf

/-! ## Kernel images -/

namespace Kernel

/-- A program header has 32 bytes. -/
theorem writes_programHeader (type : UInt32) (off fileSize memorySize : Nat) :
    Writes 32 (programHeader type off fileSize memorySize) := by
  refine (ends_word32 _ off).bind fun _ _ => ?_
  refine (ends_word32 _ fileSize).bind fun _ _ => ?_
  refine (ends_word32 _ memorySize).bind fun _ _ => ?_
  show List.length _ = 32
  simp

/-- The three program headers of a kernel image have 96 bytes. -/
theorem writes_programHeaders (notes : Nat) (places : Placement) :
    Writes 96 (programHeaders notes places) := by
  refine (writes_programHeader _ _ _ _).bind fun a ha => ?_
  refine (writes_programHeader _ _ _ _).bind fun b hb => ?_
  refine (writes_programHeader _ _ _ _).bind fun c hc => ?_
  show (a ++ b ++ c).length = 96
  rw [List.length_append, List.length_append, ha, hb, hc]

/-- An encoding entry has 16 bytes. -/
theorem writes_encodingEntry (device : UInt32) (places : Placement) :
    Writes 16 (encodingEntry device places) := by
  refine (ends_word32 _ _).bind fun _ _ => ?_
  refine (ends_word32 _ _).bind fun _ _ => ?_
  show List.length _ = 16
  simp

/-- A note has the size that is planned for it. -/
theorem writes_noteRecord (n : CalNote) : Writes n.recordSize n.record := by
  refine (ends_word32 _ _).bind fun _ _ => ?_
  show List.length _ = n.recordSize
  simp only [List.length_append, Bytes.length_ofUInt32, Vector.length_toList,
    CalNote.recordSize]

/-- The plan of a kernel image is exact when its extra sections are. -/
theorem exact_imageWith (k : Kernel) (device : UInt32) (notes : List CalNote)
    (symbols : List Elf.SymbolEntry) {extras : List Elf.Section}
    (hextras : ∀ s ∈ extras, s.body.Exact) :
    (k.imageWith device notes symbols extras).plan.Exact := by
  refine Elf.Image.exact_plan ?_ ?_
  · intro piece hp
    simp only [imageWith, List.mem_append, List.mem_cons, List.not_mem_nil, or_false,
      List.mem_map] at hp
    rcases hp with (rfl | rfl) | ⟨n, -, rfl⟩
    · exact writes_programHeaders _
    · exact writes_encodingEntry device
    · exact fun _ => writes_noteRecord n
  · intro s hs
    simp only [imageWith, List.mem_append, List.mem_cons, List.not_mem_nil, or_false] at hs
    rcases hs with (rfl | rfl | rfl | rfl | rfl) | hs
    · exact Piece.exact_ofBytes _
    · exact Piece.exact_ofBytes _
    · exact Piece.exact_ofBytes _
    · exact Elf.exact_symbolTable false _
    · exact Piece.exact_ofBytes _
    · exact hextras s hs

/-- A kernel image has an exact plan, or cannot be planned. -/
theorem ends_image (k : Kernel) (device : UInt32) (notes : List CalNote) :
    Ends ImageError.IsPlanning (fun im => im.plan.Exact) (k.image device notes) := by
  refine (ends_nameOffsets_planning _ _).bind fun _ _ => ?_
  refine (Elf.ends_extraSymbols _ _ _ _).bind fun symbols _ => ?_
  refine (Ends.mapM fun e _ => Elf.ends_extraSection _ _ e.1 e.2).bind fun extras hextras => ?_
  exact k.exact_imageWith device notes symbols hextras

end Kernel

/-! ## The binary -/

namespace Model

/-- Validation fails only because the model is invalid. -/
theorem ends_validate (m : Model) :
    Ends (fun e => e.isInvalid = true) (fun _ => True) m.validate := by
  unfold validate
  split
  · exact rfl
  · split
    · exact rfl
    · exact trivial

/-- A kernel is planned exactly, or planning ends with an error of its own. -/
theorem ends_kernelPart (m : Model) (i : Nat) (k : Kernel) :
    Ends ImageError.IsPlanning (fun part => part.plan.Exact) (m.kernelPart i k) :=
  (k.ends_image _ _).bind fun _ him => him

/-- All kernels are planned exactly, or planning ends with an error of its own. -/
theorem ends_placeKernels (m : Model) (start : Nat) (l : List (Kernel × Nat)) :
    Ends ImageError.IsPlanning (fun placed => ∀ p ∈ placed, p.1.plan.Exact)
      (m.placeKernels start l) := by
  induction l generalizing start with
  | nil => exact List.forall_mem_nil _
  | cons e rest ih =>
    have hplaced : Ends ImageError.IsPlanning (fun p => p.1.plan.Exact)
        (m.placeKernel start e.2 e.1) := by
      refine (m.ends_kernelPart e.2 e.1).bind fun part hpart => ?_
      exact (ends_nameOffsets_planning _ _).bind fun _ _ => hpart
    refine hplaced.bind fun p hp => ?_
    exact (ih _).bind fun more hmore => List.forall_mem_cons.mpr ⟨hp, hmore⟩

/-- The kernel images take what is planned for each of them. -/
theorem size_imagesPiece (parts : List KernelPart) :
    (imagesPiece parts).size = (parts.map (·.plan.size)).sum := rfl

/-- The kernel images are an exact piece when each of their plans is exact. -/
theorem exact_imagesPiece {parts : List KernelPart} (h : ∀ part ∈ parts, part.plan.Exact) :
    (imagesPiece parts).Exact := by
  intro places
  rw [size_imagesPiece]
  show Writes (parts.map (·.plan.size)).sum (writeImages parts)
  induction parts with
  | nil => exact rfl
  | cons part rest ih =>
    refine (Plan.ends_write (h part List.mem_cons_self)).bind fun b hb => ?_
    refine (ih fun p hp => h p (List.mem_cons_of_mem _ hp)).bind fun c hc => ?_
    show (b ++ c).length = _
    rw [List.length_append, hb, hc, List.map_cons, List.sum_cons]

/-- The plan of the binary is exact when the plans of its kernel images and its extra sections
are. -/
theorem exact_imageWith (m : Model) {parts : List KernelPart}
    (hparts : ∀ part ∈ parts, part.plan.Exact) (symbols : List Elf.SymbolEntry)
    {extras : List Elf.Section} (hextras : ∀ s ∈ extras, s.body.Exact) :
    (m.imageWith parts symbols extras).plan.Exact := by
  refine Elf.Image.exact_plan (fun piece hp => absurd hp List.not_mem_nil) ?_
  intro s hs
  simp only [imageWith, List.mem_append, List.mem_cons, List.not_mem_nil, or_false] at hs
  rcases hs with (rfl | rfl | rfl | rfl | rfl | rfl) | hs
  · exact Piece.exact_ofBytes _
  · exact Piece.exact_ofBytes _
  · exact Elf.exact_symbolTable m.is64 _
  · exact Piece.exact_ofBytes _
  · exact exact_imagesPiece hparts
  · exact Piece.exact_ofBytes _
  · exact hextras s hs

/-- A binary has an exact plan, or cannot be planned. -/
theorem ends_image (m : Model) :
    Ends ImageError.IsPlanning (fun made => made.2.plan.Exact) m.image := by
  have hfirst : Ends ImageError.IsPlanning (fun _ => True) m.firstOffsets := by
    refine (ends_nameOffsets_planning _ _).bind fun _ _ => ?_
    exact (ends_nameOffsets_planning _ _).bind fun _ _ => trivial
  refine hfirst.bind fun _ _ => ?_
  refine (m.ends_placeKernels _ _).bind fun placed hplaced => ?_
  refine (Elf.ends_extraSymbols _ _ _ _).bind fun symbols _ => ?_
  refine (Ends.mapM fun e _ => Elf.ends_extraSection _ _ e.1 e.2).bind fun extras hextras => ?_
  exact m.exact_imageWith (List.forall_mem_map.mpr hplaced) _ hextras

/-- A model has an exact plan, or is refused, or cannot be planned. -/
theorem ends_plan (m : Model) :
    Ends (fun e => e.isInvalid = true ∨ e.IsPlanning) (fun p => p.Exact) m.plan := by
  refine (m.ends_validate.mono (fun _ => Or.inl) fun _ h => h).bind fun _ _ => ?_
  exact (m.ends_image.mono (fun _ => Or.inr) fun _ h => h).bind fun _ him => him

/-! ## Inversion -/

/-- The parts of all kernels, in order. -/
def kernelParts (m : Model) : Except ImageError (List KernelPart) :=
  m.kernelList.zipIdx.mapM fun e => m.kernelPart e.2 e.1

/-- Placed kernels have their parts, and their names stand one after another. -/
theorem placeKernels_eq_ok {m : Model} {start : Nat} {l : List (Kernel × Nat)}
    {placed : List (KernelPart × List UInt32)} (h : m.placeKernels start l = .ok placed) :
    l.mapM (fun e => m.kernelPart e.2 e.1) = .ok (placed.map (·.1)) ∧
      Elf.nameOffsets start (l.flatMap fun e => kernelNames e.1)
        = .ok (placed.flatMap (·.2)) := by
  induction l generalizing start placed with
  | nil =>
    cases h
    exact ⟨rfl, rfl⟩
  | cons e rest ih =>
    obtain ⟨p, hp, h⟩ := bind_eq_ok_iff.mp h
    obtain ⟨more, hmore, h⟩ := bind_eq_ok_iff.mp h
    cases h
    obtain ⟨part, hpart, hp⟩ := bind_eq_ok_iff.mp hp
    obtain ⟨names, hnames, hp⟩ := bind_eq_ok_iff.mp hp
    cases hp
    obtain ⟨hparts, hrest⟩ := ih hmore
    refine ⟨?_, Elf.nameOffsets_append hnames hrest⟩
    rw [mapM_eq_ok_iff] at hparts ⊢
    exact .cons hpart hparts

/-- What the image of a binary is made of: the parts of its kernels, the offsets of all names, and
an extra symbol and an extra section for each of the model. -/
theorem image_eq_ok {m : Model} {parts : List KernelPart} {im : Elf.Image}
    (h : m.image = .ok (parts, im)) :
    m.kernelParts = .ok parts ∧ ∃ sectionNames names extraSymbols extras,
      Elf.nameOffsets imageSectionNames.length (m.sectionList.map (·.name)) = .ok sectionNames ∧
      Elf.nameOffsets 1 (localNames m.kernelList) = .ok names ∧
      m.symbolEntries = .ok extraSymbols ∧
      (m.sectionList.zip sectionNames).mapM (fun e => m.imageSection e.1 e.2) = .ok extras ∧
      im = m.imageWith parts (Elf.named (m.localSymbols parts) names ++ extraSymbols) extras := by
  obtain ⟨⟨sectionNames, options⟩, hfirst, h⟩ := bind_eq_ok_iff.mp h
  obtain ⟨placed, hplaced, h⟩ := bind_eq_ok_iff.mp h
  obtain ⟨extraSymbols, hsymbols, h⟩ := bind_eq_ok_iff.mp h
  obtain ⟨extras, hextras, h⟩ := bind_eq_ok_iff.mp h
  cases h
  obtain ⟨sections, hsections, hfirst⟩ := bind_eq_ok_iff.mp hfirst
  obtain ⟨first, hoptions, hfirst⟩ := bind_eq_ok_iff.mp hfirst
  cases hfirst
  obtain ⟨hparts, hnames⟩ := placeKernels_eq_ok hplaced
  have hkernels : m.kernelList.zipIdx.flatMap (fun e => kernelNames e.1)
      = m.kernelList.flatMap kernelNames := by
    rw [← List.flatMap_map, List.zipIdx_map_fst]
  rw [hkernels] at hnames
  exact ⟨hparts, sectionNames, _, extraSymbols, extras, hsections,
    Elf.nameOffsets_append hoptions hnames, hsymbols, hextras, rfl⟩

/-- The plan of a binary is that of its image. -/
theorem plan_eq_ok {m : Model} {p : Plan} (h : m.plan = .ok p) :
    ∃ parts im, m.validate = .ok () ∧ m.image = .ok (parts, im) ∧ im.plan = p := by
  obtain ⟨⟨⟩, hvalid, h⟩ := bind_eq_ok_iff.mp h
  obtain ⟨⟨parts, im⟩, him, h⟩ := bind_eq_ok_iff.mp h
  cases h
  exact ⟨parts, im, hvalid, him, rfl⟩

/-- A generated binary is its plan, written. -/
theorem generate_eq_ok {m : Model} {b : Bytes} (h : m.generate = .ok b) :
    ∃ p, m.plan = .ok p ∧ p.write = .ok b := by
  obtain ⟨p, hp, h⟩ := bind_eq_ok_iff.mp h
  obtain ⟨c, hc, h⟩ := bind_eq_ok_iff.mp h
  split at h
  · cases h
  · cases h
    exact ⟨p, hp, hc⟩

/-- Each kernel has its part. -/
theorem exists_kernelPart {m : Model} {parts : List KernelPart} (h : m.kernelParts = .ok parts)
    {i : Nat} {k : Kernel} (hk : m.kernelList[i]? = some k) :
    ∃ part, parts[i]? = some part ∧ m.kernelPart i k = .ok part := by
  have hi : m.kernelList.zipIdx[i]? = some (k, i) := by
    rw [List.getElem?_zipIdx, hk, Option.map_some, Nat.zero_add]
  obtain ⟨part, hpart, hk⟩ := exists_getElem?_of_forall₂ (mapM_eq_ok_iff.mp h) hi
  exact ⟨part, hpart, hk⟩

/-- The written images, one for each kernel. -/
theorem writeImages_eq_ok {parts : List KernelPart} {text : Bytes}
    (h : writeImages parts = .ok text) :
    ∃ images : List Bytes, images.flatten = text ∧
      List.Forall₂ (fun part c => part.plan.write = .ok c) parts images := by
  induction parts generalizing text with
  | nil =>
    cases h
    exact ⟨[], rfl, .nil⟩
  | cons part rest ih =>
    obtain ⟨b, hb, h⟩ := bind_eq_ok_iff.mp h
    obtain ⟨c, hc, h⟩ := bind_eq_ok_iff.mp h
    cases h
    obtain ⟨images, rfl, himages⟩ := ih hc
    exact ⟨b :: images, rfl, .cons hb himages⟩

/-- The sizes of written images are the planned ones. -/
theorem map_length_images {parts : List KernelPart} {images : List Bytes}
    (h : List.Forall₂ (fun part c => part.plan.write = .ok c) parts images) :
    parts.map (·.plan.size) = images.map List.length :=
  map_eq_map_of_forall₂ (h.imp fun _ _ hc => (Plan.written_of_write hc).length_eq.symm)

/-- The kernel images are the piece of the section of kernel images. -/
theorem getElem?_textIndex {m : Model} {parts : List KernelPart} {im : Elf.Image}
    (h : m.image = .ok (parts, im)) :
    im.plan.pieces[textIndex]? = some (imagesPiece parts) := by
  obtain ⟨-, _, _, _, _, -, -, -, -, rfl⟩ := image_eq_ok h
  rfl

/-! ## Sizes -/

/-- Each kernel image stands in a written binary as it was planned. -/
theorem written_kernelImage {m : Model} {parts : List KernelPart} {im : Elf.Image} {b : Bytes}
    (him : m.image = .ok (parts, im)) (hb : im.plan.Written b) {i : Nat} {part : KernelPart}
    (hi : parts[i]? = some part) :
    part.plan.Written ((b.drop (im.plan.placement.offset textIndex +
      ((parts.take i).map (·.plan.size)).sum)).take part.plan.size) := by
  obtain ⟨-, hemit⟩ := hb.piece_at (getElem?_textIndex him)
  obtain ⟨images, hflat, himages⟩ := writeImages_eq_ok hemit
  obtain ⟨c, hc, hwrite⟩ := exists_getElem?_of_forall₂ himages hi
  have hwritten := Plan.written_of_write hwrite
  have hsizes := map_length_images himages
  have hfit : ((parts.take i).map (·.plan.size)).sum + part.plan.size
      ≤ (imagesPiece parts).size := by
    have hi' : (parts.map (·.plan.size))[i]? = some part.plan.size := by
      rw [List.getElem?_map, hi, Option.map_some]
    rw [List.map_take, ← sum_take_add_one hi']
    exact sum_take_le _ _
  rw [← take_drop_take_drop b hfit, ← hflat, List.map_take, hsizes, ← List.map_take,
    ← hwritten.length_eq, take_drop_flatten hc]
  exact hwritten

/-- The size of a model without a plan. -/
theorem size_of_plan_eq_error {m : Model} {e : ImageError} (h : m.plan = .error e) :
    m.size = if e.isOverflow then .error e else .ok 0 := by
  rw [size, h]

/-- A binary that is planned is written, or a number does not fit its field. -/
theorem ends_generate (m : Model) :
    Ends (fun e => m.plan = .error e ∨ e.isOverflow = true) (fun _ => True) m.generate := by
  have hplan : Ends (fun e => m.plan = .error e ∨ e.isOverflow = true) (fun p => p.Exact)
      m.plan := by
    cases hp : m.plan with
    | error e => exact Or.inl rfl
    | ok p => exact m.ends_plan.of_eq_ok hp
  refine hplan.bind fun p hp => ?_
  refine ((Plan.ends_write hp).mono (fun _ => Or.inr) fun _ h => h).bind fun b hb => ?_
  rw [if_neg (not_not.mpr hb)]
  exact trivial

/-- **The size pass and the write pass never drift.** The size of a generated binary is the planned
one, and every piece of it and of each kernel image in it starts at its planned offset and has its
planned length. A binary that is not generated was refused, with size zero, or has a number that
does not fit its field: no comparison of what is written with what was planned ever fails. -/
theorem generate_follows_plan (m : Option Model) :
    (∀ b, generate? m = .ok b → size? m = .ok b.length ∧
      ∃ model plan parts, m = some model ∧ model.plan = .ok plan ∧
        model.kernelParts = .ok parts ∧ plan.Written b ∧
        ∀ i k, model.kernelList[i]? = some k →
          ∃ part, parts[i]? = some part ∧ model.kernelPart i k = .ok part ∧
            part.plan.Written ((b.drop (plan.placement.offset textIndex +
              ((parts.take i).map (·.plan.size)).sum)).take part.plan.size)) ∧
    (∀ e, generate? m = .error e → plan? m = .error e ∨ ∃ field, e = .overflow field) ∧
    (∀ e, plan? m = .error e → generate? m = .error e ∧
      ((e.isInvalid = true ∨ e.isUnmapped = true) ∧ size? m = .ok 0 ∨
        (∃ field, e = .overflow field) ∧ size? m = .error e)) ∧
    (∀ e, validate? m = .error e → e.isInvalid = true ∧ plan? m = .error e) := by
  cases m with
  | none =>
    refine ⟨fun b h => ?_, fun e h => ?_, fun e h => ?_, fun e h => ?_⟩
    · cases h
    · cases h
      exact Or.inl rfl
    · cases h
      exact ⟨rfl, Or.inl ⟨Or.inl rfl, rfl⟩⟩
    · cases h
      exact ⟨rfl, rfl⟩
  | some m =>
    refine ⟨fun b h => ?_, fun e h => ?_, fun e h => ?_, fun e h => ?_⟩
    · -- what is generated was written by the plan, and so was each kernel image in it
      obtain ⟨p, hp, hb⟩ := generate_eq_ok h
      obtain ⟨parts, im, -, him, rfl⟩ := plan_eq_ok hp
      have hparts := (image_eq_ok him).1
      have hw := Plan.written_of_write hb
      refine ⟨?_, m, im.plan, parts, rfl, hp, hparts, hw, fun i k hk => ?_⟩
      · show m.size = _
        rw [size, hp, hw.length_eq]
      · obtain ⟨part, hi, hpart⟩ := exists_kernelPart hparts hk
        exact ⟨part, hi, hpart, written_kernelImage him hw hi⟩
    · -- exact pieces fail only because a number does not fit
      rcases m.ends_generate.of_eq_error h with hp | he
      · exact Or.inl hp
      · exact Or.inr (ImageError.isOverflow_iff.mp he)
    · have hsize : size? (some m) = _ := size_of_plan_eq_error h
      refine ⟨by rw [generate?, generate, show m.plan = .error e from h]; rfl, ?_⟩
      rcases or_assoc.mpr (m.ends_plan.of_eq_error h) with he | he
      · rw [if_neg (by simp [ImageError.isOverflow_eq_false he])] at hsize
        exact Or.inl ⟨he, hsize⟩
      · rw [if_pos he] at hsize
        exact Or.inr ⟨ImageError.isOverflow_iff.mp he, hsize⟩
    · refine ⟨m.ends_validate.of_eq_error h, ?_⟩
      rw [plan?, plan, show m.validate = .error e from h]
      rfl

end Model

end CatalystAsm
