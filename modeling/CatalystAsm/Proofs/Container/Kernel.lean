import CatalystAsm.Proofs.Container.Image

/-!
# Reading kernel images

A reader of a kernel image finds three program headers: of the encoding entry, of the notes, and of
code and data (`Kernel.imageBytes_reads_back`). The notes have no framing but their own lengths, so
`ElfFile.notes` reads one record after another and the proof goes from one record
(`ElfFile.notes_record`) to all of them (`ElfFile.notes_flatten`).
-/

namespace CatalystAsm

/-! ## Notes -/

namespace ElfFile

/-- A note of a file. -/
structure Note where
  type : Nat
  owner : Bytes
  data : Bytes
  deriving DecidableEq, Repr

/-- The notes of a segment. A record is the length of the owner, which is eight, the length of the
data, the type, the owner and the data; the next record follows right behind it, and nothing may be
left over. -/
def notes (f : ElfFile) (segment : Bytes) : Option (List Note) :=
  if segment = [] then some []
  else
    let size := f.number segment 4 4
    if f.number segment 0 4 = 8 ∧ 20 + size ≤ segment.length then
      (f.notes (segment.drop (20 + size))).map
        (⟨f.number segment 8 4, (segment.drop 12).take 8, (segment.drop 20).take size⟩ :: ·)
    else none
termination_by segment.length
decreasing_by
  rw [List.length_drop]
  omega

end ElfFile

/-- A note as a reader finds it. -/
def CalNote.found (n : CalNote) : ElfFile.Note where
  type := n.type.id.toNat
  owner := n.owner.toList
  data := n.data.getD []

namespace ElfFile

/-- What reading a note asks for: its lengths in front of its owner and its data. -/
theorem notes_append (f : ElfFile) {head owner : Bytes} (data rest : Bytes)
    (hhead : head.length = 12) (howner : owner.length = 8)
    (h0 : f.number (head ++ (owner ++ (data ++ rest))) 0 4 = 8)
    (h4 : f.number (head ++ (owner ++ (data ++ rest))) 4 4 = data.length) :
    f.notes (head ++ (owner ++ (data ++ rest))) = (f.notes rest).map
      (⟨f.number (head ++ (owner ++ (data ++ rest))) 8 4, owner, data⟩ :: ·) := by
  have hne : head ++ (owner ++ (data ++ rest)) ≠ [] := by
    rw [← List.length_pos_iff, List.length_append]
    omega
  have hfit : 20 + data.length ≤ (head ++ (owner ++ (data ++ rest))).length := by
    simp only [List.length_append]
    omega
  have hdrop12 : (head ++ (owner ++ (data ++ rest))).drop 12 = owner ++ (data ++ rest) :=
    List.drop_left' hhead
  have hdrop20 : (head ++ (owner ++ (data ++ rest))).drop 20 = data ++ rest := by
    rw [show 20 = 12 + 8 from rfl, ← List.drop_drop, hdrop12, List.drop_left' howner]
  -- the record is passed over as a whole, so reading goes on at `rest`
  rw [notes, if_neg hne]
  dsimp only
  rw [h4, if_pos ⟨h0, hfit⟩, hdrop12, List.take_left' howner, hdrop20, List.take_left,
    ← List.drop_drop, hdrop20, List.drop_left]

/-- A reader finds a note at the start of a segment and goes on behind it. -/
theorem notes_record {f : ElfFile} (hf : f.highFirst = false) {n : CalNote} {r : Bytes}
    (hr : n.record = .ok r) (rest : Bytes) :
    f.notes (r ++ rest) = (f.notes rest).map (n.found :: ·) := by
  obtain ⟨size, hsize, hr⟩ := bind_eq_ok_iff.mp hr
  cases hr
  have hlen := toNat_of_word32 hsize
  have hhead : (Bytes.ofUInt32 8 ++ .ofUInt32 size ++ .ofUInt32 n.type.id).length = 12 := by simp
  have hread := f.notes_append (n.data.getD []) rest hhead n.owner.length_toList
  simp only [List.append_assoc] at hread ⊢
  rw [hread]
  · simp [number_append_of_le, number_ofUInt32 hf, CalNote.found]
  · simp [number_ofUInt32 hf]
  · simp [number_append_of_le, number_ofUInt32 hf, hlen]

/-- A reader finds all notes of a segment, in order. -/
theorem notes_flatten {f : ElfFile} (hf : f.highFirst = false) {notes : List CalNote}
    {records : List Bytes} (h : List.Forall₂ (fun n r => n.record = .ok r) notes records) :
    f.notes records.flatten = some (notes.map CalNote.found) := by
  induction h with
  | nil =>
    rw [ElfFile.notes]
    rfl
  | cons hr _ ih =>
    rw [List.flatten_cons, notes_record hf hr, ih]
    rfl

end ElfFile

/-! ## Images -/

namespace Kernel

/-- The bytes of the image of a kernel with the given notes. -/
def imageBytes (k : Kernel) (device : UInt32) (notes : List CalNote) : Except ImageError Bytes := do
  let image ← k.image device notes
  image.plan.write

/-- The strings of a kernel image. -/
def strings (k : Kernel) : Bytes := Elf.stringTable [0, 0] (k.symbolList.map (·.name))

/-- The section names of a kernel image. -/
def sectionStrings (k : Kernel) : Bytes :=
  Elf.stringTable imageSectionNames (k.sectionList.map (·.name))

/-- What a kernel image is made of: a symbol table entry for each extra symbol and a section for
each extra section. -/
theorem image_eq_ok {k : Kernel} {device : UInt32} {notes : List CalNote} {im : Elf.Image}
    (h : k.image device notes = .ok im) :
    ∃ symbols extras, im = k.imageWith device notes symbols extras ∧
      List.Forall₂ (fun s made => NameAt k.strings made.name.toNat s.name ∧
        made.Copies (sectionIndex? k.sectionList.length) s) k.symbolList symbols ∧
      List.Forall₂ (fun s made => NameAt k.sectionStrings made.header.name.toNat s.name ∧
        k.imageSection s made.header.name = .ok made) k.sectionList extras := by
  obtain ⟨sectionOffsets, hsectionOffsets, h⟩ := bind_eq_ok_iff.mp h
  obtain ⟨symbols, hsymbols, h⟩ := bind_eq_ok_iff.mp h
  obtain ⟨extras, hextras, h⟩ := bind_eq_ok_iff.mp h
  cases h
  obtain ⟨hoffsets, hcopies⟩ := Elf.extraSymbols_eq_ok hsymbols
  have hnames := Elf.nameAt_stringTable [0, 0] hoffsets
  rw [List.forall₂_map_left_iff, List.forall₂_map_right_iff] at hnames
  refine ⟨symbols, extras, rfl, ?_, ?_⟩
  · exact List.Forall₂.mp (fun _ _ => And.intro) hnames.flip hcopies
  · exact Elf.nameAt_of_mapM (fun h => (Elf.extraSection_eq_ok h).1) imageSectionNames
      hsectionOffsets hextras

section

variable {k : Kernel} {device : UInt32} {notes : List CalNote} {symbols : List Elf.SymbolEntry}
  {extras : List Elf.Section} {b : Bytes}

theorem bodyPiece_imageWith (i : Nat) :
    (k.imageWith device notes symbols extras).bodyPiece i = firstNotePiece + notes.length + i := by
  simp only [Elf.Image.bodyPiece, imageWith, List.length_append, List.length_cons, List.length_nil,
    List.length_map, firstNotePiece]
  omega

theorem length_pieces_imageWith : (k.imageWith device notes symbols extras).plan.pieces.length =
    firstNotePiece + notes.length + 5 + extras.length + 1 := by
  rw [Elf.Image.length_pieces, Elf.Image.tablePiece, bodyPiece_imageWith]
  simp only [imageWith, List.length_append, List.length_cons, List.length_nil]
  omega

/-- The bodies of the sections come right behind the notes. -/
theorem getElem?_section {i : Nat} {s : Elf.Section}
    (h : (k.imageWith device notes symbols extras).sections[i]? = some s) :
    (k.imageWith device notes symbols extras).plan.pieces[firstNotePiece + notes.length + i]?
      = some s.body := by
  rw [← bodyPiece_imageWith]
  exact Elf.Image.getElem?_body h

/-- The pieces before the notes have fixed places. -/
theorem offset_imageWith {i : Nat} (hi : i ≤ firstNotePiece) :
    (k.imageWith device notes symbols extras).plan.placement.offset i
      = ([52, 96, 16].take i).sum := by
  rw [Plan.offset_eq_sum (by rw [length_pieces_imageWith]; omega)]
  obtain ⟨rest, hrest⟩ : ∃ rest, (k.imageWith device notes symbols extras).plan.sizes
      = [52, 96, 16] ++ rest := ⟨_, rfl⟩
  rw [hrest, List.take_append_of_le_length hi]

/-- A reader finds the three program headers of a kernel image. -/
theorem programs_of_written (hb : (k.imageWith device notes symbols extras).plan.Written b) :
    ((k.imageWith device notes symbols extras).file b).programs
        (k.imageWith device notes symbols extras).layout =
      let places := (k.imageWith device notes symbols extras).plan.placement
      let names := firstNotePiece + notes.length
      let loadSize := places.offset (names + 3) - places.offset (names + 1)
      .ok [⟨0x70000002, places.offset encodingPiece, 16, 0⟩,
        ⟨4, places.offset firstNotePiece,
          places.offset names - places.offset firstNotePiece, 0⟩,
        ⟨1, places.offset (names + 1), loadSize, loadSize⟩] := by
  have hpiece : (k.imageWith device notes symbols extras).plan.pieces[1]?
      = some ⟨96, programHeaders notes.length⟩ := rfl
  obtain ⟨-, hemit⟩ := hb.piece_at hpiece
  have hbytes := hb.bytesAt hpiece hemit
  obtain ⟨encoding, hencoding, hemit⟩ := bind_eq_ok_iff.mp hemit
  obtain ⟨note, hnote, hemit⟩ := bind_eq_ok_iff.mp hemit
  obtain ⟨load, hload, hemit⟩ := bind_eq_ok_iff.mp hemit
  rw [← Except.ok.inj hemit, offset_imageWith (by decide)] at hbytes
  have hrecords : ∀ r ∈ [encoding, note, load], r.length = 32 := by
    simp only [List.forall_mem_cons]
    exact ⟨(writes_programHeader _ _ _ _).of_eq_ok hencoding,
      (writes_programHeader _ _ _ _).of_eq_ok hnote,
      (writes_programHeader _ _ _ _).of_eq_ok hload, by simp⟩
  have htable : encoding ++ note ++ load = [encoding, note, load].flatten := by simp
  rw [htable] at hbytes
  rw [ElfFile.programs_eq_ok hbytes hrecords rfl, List.map_cons, List.map_cons, List.map_cons,
    List.map_nil, programOf_programHeader hencoding rfl rfl, programOf_programHeader hnote rfl rfl,
    programOf_programHeader hload rfl rfl]
  rfl

/-- The notes stand in a kernel image one after another, before the section names. -/
theorem notes_of_written (hb : (k.imageWith device notes symbols extras).plan.Written b) :
    ∃ records : List Bytes, List.Forall₂ (fun n r => n.record = .ok r) notes records ∧
      let places := (k.imageWith device notes symbols extras).plan.placement
      ElfFile.bytesAt b (places.offset firstNotePiece)
        (places.offset (firstNotePiece + notes.length) - places.offset firstNotePiece)
        = .ok records.flatten := by
  have hpieces : ∀ {j : Nat} {piece : Piece},
      (notes.map fun n : CalNote => (⟨n.recordSize, fun _ => n.record⟩ : Piece))[j]? = some piece →
      (k.imageWith device notes symbols extras).plan.pieces[firstNotePiece + j]? = some piece := by
    intro j piece hj
    -- in front of the notes are the program headers and the encoding entry
    have hfront : (k.imageWith device notes symbols extras).front[2 + j]? = some piece := by
      rw [imageWith, List.getElem?_append_right (Nat.le_add_right 2 j)]
      simpa using hj
    have hpiece := Elf.Image.getElem?_front hfront
    rwa [← Nat.add_assoc] at hpiece
  obtain ⟨records, hrecords, hbytes⟩ := hb.span hpieces
    (by rw [length_pieces_imageWith, List.length_map]; omega)
  rw [List.forall₂_map_left_iff] at hrecords
  rw [List.length_map] at hbytes
  exact ⟨records, hrecords, hbytes⟩

/-- The code and the data stand in a kernel image next to each other. -/
theorem load_of_written (hb : (k.imageWith device notes symbols extras).plan.Written b) :
    let places := (k.imageWith device notes symbols extras).plan.placement
    let names := firstNotePiece + notes.length
    ElfFile.bytesAt b (places.offset (names + 1))
      (places.offset (names + 3) - places.offset (names + 1))
      = .ok (k.codeBytes ++ k.dataBytes) := by
  have hpieces : ∀ {j : Nat} {piece : Piece},
      [Piece.ofBytes k.codeBytes, k.dataPiece][j]? = some piece →
      (k.imageWith device notes symbols extras).plan.pieces[
        firstNotePiece + notes.length + 1 + j]? = some piece := by
    intro j piece hj
    match j, hj with
    | 0, hj =>
      cases hj
      exact getElem?_section (i := 1) rfl
    | 1, hj =>
      cases hj
      exact getElem?_section (i := 2) rfl
  obtain ⟨chunks, hchunks, hbytes⟩ := hb.span hpieces
    (by rw [length_pieces_imageWith, List.length_cons, List.length_singleton]; omega)
  obtain _ | ⟨hcode, hchunks⟩ := hchunks
  obtain _ | ⟨hdata, hchunks⟩ := hchunks
  cases hchunks
  cases hcode
  cases hdata
  rw [List.flatten_cons, List.flatten_cons, List.flatten_nil, List.append_nil] at hbytes
  exact hbytes

/-- The encoding entry tells the device, the kind of encoding and what follows it. -/
theorem encoding_of_written (hb : (k.imageWith device notes symbols extras).plan.Written b)
    {f : ElfFile} (hf : f.highFirst = false) :
    let places := (k.imageWith device notes symbols extras).plan.placement
    ∃ entry, ElfFile.bytesAt b (places.offset encodingPiece) 16 = .ok entry ∧
      f.number entry 0 4 = device.toNat ∧ f.number entry 4 4 = 4 ∧
      f.number entry 8 4 = places.offset firstNotePiece ∧
      f.number entry 12 4 = b.length - places.offset firstNotePiece := by
  have hpiece : (k.imageWith device notes symbols extras).plan.pieces[encodingPiece]?
      = some ⟨16, encodingEntry device⟩ := rfl
  obtain ⟨-, hemit⟩ := hb.piece_at hpiece
  refine ⟨_, hb.bytesAt hpiece hemit, ?_⟩
  obtain ⟨start, hstart, hemit⟩ := bind_eq_ok_iff.mp hemit
  obtain ⟨size, hsize, hemit⟩ := bind_eq_ok_iff.mp hemit
  have hlast := ElfFile.number_ofUInt32 hf size []
  rw [List.append_nil, toNat_of_word32 hsize] at hlast
  rw [← Except.ok.inj hemit, hb.length_eq]
  simp only [List.append_assoc]
  refine ⟨ElfFile.number_ofUInt32 hf _ _, ?_, ?_, ?_⟩
  · simp [ElfFile.number_append_of_le, ElfFile.number_ofUInt32 hf]
  · simp [ElfFile.number_append_of_le, ElfFile.number_ofUInt32 hf, toNat_of_word32 hstart]
  · refine Eq.trans ?_ hlast
    simp [ElfFile.number_append_of_le]

/-- The bodies of the sections of a kernel image. -/
theorem bodies_imageWith
    (hextras : List.Forall₂ (fun s made => made.body = .ofBytes (s.data.getD [])) k.sectionList
      extras) :
    List.Forall₂ (fun s c =>
        s.body.emit (k.imageWith device notes symbols extras).plan.placement = .ok c)
      (k.imageWith device notes symbols extras).sections
      ([k.sectionStrings, k.codeBytes, k.dataBytes,
        (({} : Elf.SymbolEntry) :: symbols).flatMap (·.bytes false), k.strings] ++
        k.sectionList.map (·.data.getD [])) :=
  .cons rfl (.cons rfl (.cons rfl (.cons rfl (.cons rfl (Elf.bodies_extras hextras)))))

end

/-- A reader finds an extra symbol, with its value and its size as far as 32 bits hold them. -/
theorem symbolOf_copies {k : Kernel} {s : ExtraSymbol} {made : Elf.SymbolEntry}
    {f : ElfFile} (hf : f.highFirst = false) (hw : f.wide = false)
    (hname : NameAt k.strings made.name.toNat s.name)
    (h : made.Copies (sectionIndex? k.sectionList.length) s) :
    ∃ index, sectionIndex? k.sectionList.length s.home = some index ∧
      f.symbolOf k.strings (made.bytes false) =
        { name := s.name.takeWhile (· != 0), value := s.value.toNat % UInt32.size,
          size := s.size.toNat % UInt32.size, home := index % UInt16.size } := by
  have hread := (Elf.reads_symbolBytes false made (r := []) hf hw k.strings).2
  rw [List.append_nil, hname.textAt?, h.value, h.size] at hread
  exact ⟨made.index, h.index, hread⟩

/-- The names of the sections of a kernel image, without the empty one. -/
def sectionNames (k : Kernel) : List Bytes :=
  [.ofString ".shstrtab", .ofString ".text", .ofString ".data", .ofString ".symtab",
    .ofString ".strtab"] ++ k.sectionList.map (·.name)

/-- The names of the fixed sections stand where their headers say. -/
theorem nameAt_imageSectionNames :
    NameAt imageSectionNames 0 [] ∧ NameAt imageSectionNames 1 (.ofString ".shstrtab") ∧
      NameAt imageSectionNames 11 (.ofString ".text") ∧
      NameAt imageSectionNames 17 (.ofString ".data") ∧
      NameAt imageSectionNames 23 (.ofString ".symtab") ∧
      NameAt imageSectionNames 31 (.ofString ".strtab") := by
  decide +kernel

theorem names_imageWith {k : Kernel} {device : UInt32} {notes : List CalNote}
    {symbols : List Elf.SymbolEntry} {extras : List Elf.Section}
    (hextras : List.Forall₂ (fun s made => NameAt k.sectionStrings made.header.name.toNat s.name)
      k.sectionList extras) :
    List.Forall₂ (fun s name => NameAt k.sectionStrings s.header.name.toNat name)
      (k.imageWith device notes symbols extras).sections k.sectionNames := by
  obtain ⟨-, h1, h11, h17, h23, h31⟩ := nameAt_imageSectionNames
  refine .cons (h1.append _) (.cons (h11.append _) (.cons (h17.append _)
    (.cons (h23.append _) (.cons (h31.append _) ?_))))
  show List.Forall₂ _ extras (k.sectionList.map (·.name))
  rw [List.forall₂_map_right_iff]
  exact hextras.flip

/-- **A kernel image reads back.** Its program headers are those of the encoding entry, of the
notes and of code and data, and each segment holds what it was made of; so does each section. -/
theorem imageBytes_reads_back {k : Kernel} {device : UInt32} {notes : List CalNote} {b : Bytes}
    (h : k.imageBytes device notes = .ok b) :
    ∃ (f : ElfFile) (l : ElfFile.Layout) (found : List (ElfFile.Section × Nat))
      (encoding note load : ElfFile.Program) (entry segment symbols : Bytes),
      ElfFile.tables b = .ok (f, l, found) ∧ f.wide = false ∧ f.highFirst = false ∧
      l.programs = 52 ∧ l.programCount = 3 ∧ f.programs l = .ok [encoding, note, load] ∧
      encoding.type = 0x70000002 ∧ note.type = 4 ∧ load.type = 1 ∧
      -- the notes
      note.offset = 164 ∧ ElfFile.bytesAt b note.offset note.fileSize = .ok segment ∧
      f.notes segment = some (notes.map CalNote.found) ∧
      -- code and data
      ElfFile.bytesAt b load.offset load.fileSize
        = .ok (k.code.getD [] ++ k.data.getD (List.replicate 4736 0)) ∧
      -- the encoding entry
      ElfFile.bytesAt b encoding.offset encoding.fileSize = .ok entry ∧ entry.length = 16 ∧
      f.number entry 0 4 = device.toNat ∧ f.number entry 4 4 = 4 ∧
      f.number entry 8 4 = note.offset ∧ f.number entry 12 4 = b.length - note.offset ∧
      -- the sections
      l.sectionCount = 6 + k.sectionList.length ∧ l.names = 1 ∧
      List.Forall₂ (fun e c => ElfFile.bytesAt b e.1.offset e.1.size = .ok c) (found.drop 1)
        ([k.sectionStrings, k.code.getD [], k.data.getD (List.replicate 4736 0), symbols,
          k.strings] ++ k.sectionList.map (·.data.getD [])) ∧
      List.Forall₂ (fun e name => NameAt k.sectionStrings e.2 name) found ([] :: k.sectionNames) ∧
      List.Forall₂ (fun record name => NameAt k.strings (f.number record 0 4) name)
        (f.symbolRecords symbols) ([] :: k.symbolList.map (·.name)) ∧
      List.Forall₂ (fun record s => ∃ index,
          sectionIndex? k.sectionList.length s.home = some index ∧
          f.symbolOf k.strings record =
            { name := s.name.takeWhile (· != 0), value := s.value.toNat % UInt32.size,
              size := s.size.toNat % UInt32.size, home := index % UInt16.size })
        ((f.symbolRecords symbols).drop 1) k.symbolList := by
  obtain ⟨im, him, hb⟩ := bind_eq_ok_iff.mp h
  obtain ⟨symbols, extras, rfl, hsymbols, hextras⟩ := image_eq_ok him
  have hb := Plan.written_of_write hb
  have hlen := Elf.Image.length_lt hb (fun hwide => by cases hwide)
  obtain ⟨records, hrecords, hnotes⟩ := notes_of_written hb
  obtain ⟨entry, hentry, hdevice, hkind, hstart, hsize⟩ := encoding_of_written hb
    (f := (k.imageWith device notes symbols extras).file b) rfl
  refine ⟨_, _, _, _, _, _, entry, records.flatten, _,
    Elf.Image.tables_of_written hb hlen (List.cons_ne_nil _ _), rfl, rfl, rfl, rfl,
    programs_of_written hb, rfl, rfl, rfl, offset_imageWith (Nat.le_refl _), hnotes,
    ElfFile.notes_flatten rfl hrecords,
    load_of_written hb, hentry, (ElfFile.bytesAt_eq_ok_iff.mp hentry).2, hdevice, hkind, hstart,
    hsize, ?_, rfl, Elf.Image.bodies_found hb (bodies_imageWith ?_),
    Elf.Image.names_found (nameAt_imageSectionNames.1.append _) (names_imageWith ?_),
    Elf.names_symbolRecords rfl rfl (.cons ⟨_, rfl⟩ ?_), ?_⟩
  · show (k.imageWith device notes symbols extras).sections.length + 1 = _
    simp only [imageWith, List.length_append, List.length_cons, List.length_nil,
      hextras.length_eq]
    omega
  · exact hextras.imp fun s made h => (Elf.extraSection_eq_ok h.2).2.2
  · exact hextras.imp fun s made h => h.1
  · rw [List.forall₂_map_right_iff]
    exact (hsymbols.imp fun s made h => h.1).flip
  · have hwide : ((k.imageWith device notes symbols extras).file b).wide = false := rfl
    rw [Elf.symbolRecords_symbols hwide, List.map_cons, List.drop_one, List.tail_cons,
      List.forall₂_map_left_iff]
    exact (hsymbols.imp fun s made h => symbolOf_copies rfl rfl h.1 h.2).flip

theorem repeated_notes_read_back :
    ∃ b f segment, Kernel.imageBytes { data := some [], code := some [0x7f] } 26
        [{ type := .progInfo, data := some [5] }, { type := .progInfo }] = .ok b ∧
      ElfFile.notes f segment
        = some [⟨1, noteOwner.toList, [5]⟩, ⟨1, noteOwner.toList, []⟩] := by
  obtain ⟨b, hb⟩ := exists_of_isOk (x := Kernel.imageBytes
    { data := some [], code := some [0x7f] } 26
    [{ type := .progInfo, data := some [5] }, { type := .progInfo }]) (by decide +kernel)
  obtain ⟨f, -, -, -, -, -, -, segment, -, -, -, -, -, -, -, -, -, -, -, -, hnotes, -⟩ :=
    imageBytes_reads_back hb
  exact ⟨b, f, segment, hb, hnotes⟩

end Kernel

end CatalystAsm
