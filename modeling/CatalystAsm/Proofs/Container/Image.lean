import CatalystAsm.Proofs.Container.Reader

/-!
# Reading ELF images

A reader finds in a written ELF image what the image was made of: where its tables are, and for
each section the planned place of its body (`Elf.Image.tables_of_written`). When the section names
are a table of names it also finds the names (`Elf.Image.ofBytes_of_written`).

A wide image has to be shorter than `ElfFile.lengthLimit`, since a reader takes offsets and sizes
for signed numbers of 64 bits. A narrow image is always shorter than that.
-/

namespace CatalystAsm

/-- The bytes of a written piece, as a reader takes them. -/
theorem Plan.Written.bytesAt {p : Plan} {b : Bytes} (hb : p.Written b) {i : Nat} {piece : Piece}
    {c : Bytes} (hi : p.pieces[i]? = some piece) (hc : piece.emit p.placement = .ok c) :
    ElfFile.bytesAt b (p.placement.offset i) piece.size = .ok c := by
  obtain ⟨hle, hemit⟩ := hb.piece_at hi
  rw [ElfFile.bytesAt_of_le hle, Except.ok.inj (hemit.symm.trans hc)]

/-- Pieces one after another have written what stands between the start of the first one and the
start of the piece behind them. -/
theorem Plan.Written.span {p : Plan} {b : Bytes} (hb : p.Written b) {pieces : List Piece} {i : Nat}
    (hpieces : ∀ {j : Nat} {piece : Piece}, pieces[j]? = some piece →
      p.pieces[i + j]? = some piece) (hlt : i + pieces.length < p.pieces.length) :
    ∃ chunks : List Bytes,
      List.Forall₂ (fun piece c => piece.emit p.placement = .ok c) pieces chunks ∧
      ElfFile.bytesAt b (p.placement.offset i)
        (p.placement.offset (i + pieces.length) - p.placement.offset i) = .ok chunks.flatten := by
  induction pieces generalizing i with
  | nil =>
    refine ⟨[], .nil, ?_⟩
    rw [List.length_nil, Nat.add_zero, Nat.sub_self]
    exact ElfFile.bytesAt_eq_ok_iff.mpr ⟨List.take_zero, rfl⟩
  | cons piece rest ih =>
    have hfirst : p.pieces[i]? = some piece := hpieces (j := 0) rfl
    obtain ⟨-, hemit⟩ := hb.piece_at hfirst
    rw [List.length_cons] at hlt
    have hnext : ∀ {j : Nat} {piece : Piece}, rest[j]? = some piece →
        p.pieces[i + 1 + j]? = some piece := by
      intro j piece hj
      rw [Nat.add_assoc, Nat.add_comm 1]
      exact hpieces (by rwa [List.getElem?_cons_succ])
    obtain ⟨chunks, hchunks, hbytes⟩ := ih hnext (by omega)
    have hoff := Plan.offset_add_one hfirst (by omega)
    have hlast := p.offset_le_offset (Nat.le_add_right (i + 1) rest.length) (by omega)
    refine ⟨_, .cons hemit hchunks, ?_⟩
    -- the two slices meet where the first piece ends
    rw [hoff] at hbytes hlast
    have happend := ElfFile.bytesAt_append (hb.bytesAt hfirst hemit) hbytes
    rw [List.flatten_cons, ← happend, List.length_cons, Nat.add_comm rest.length, ← Nat.add_assoc]
    congr 1
    omega

namespace Elf.Image

/-! ## Pieces -/

/-- The pieces of an image: its header, the front, the sections and the section header table. -/
theorem pieces_plan (im : Image) : im.plan.pieces =
    ⟨headerLength im.wide, fun places => im.headerBytes (places.offset im.tablePiece)⟩ ::
      (im.front ++ (im.sections.map (·.body) ++
        [⟨(im.sections.length + 1) * sectionHeaderLength im.wide, im.tableBytes⟩])) := by
  rw [plan, List.append_assoc, List.append_assoc, List.singleton_append]

/-- The section header table is the last piece. -/
theorem length_pieces (im : Image) : im.plan.pieces.length = im.tablePiece + 1 := by
  simp only [plan, tablePiece, bodyPiece, List.length_append, List.length_cons, List.length_nil,
    List.length_map]

theorem getElem?_header (im : Image) : im.plan.pieces[0]? =
    some ⟨headerLength im.wide, fun places => im.headerBytes (places.offset im.tablePiece)⟩ := rfl

/-- The front comes behind the header. -/
theorem getElem?_front {im : Image} {i : Nat} {piece : Piece} (h : im.front[i]? = some piece) :
    im.plan.pieces[1 + i]? = some piece := by
  obtain ⟨hi, -⟩ := List.getElem?_eq_some_iff.mp h
  rw [pieces_plan, Nat.add_comm 1 i, List.getElem?_cons_succ, List.getElem?_append_left hi, h]

theorem getElem?_bodyPiece (im : Image) (i : Nat) : im.plan.pieces[im.bodyPiece i]? =
    (im.sections.map (·.body) ++
      [⟨(im.sections.length + 1) * sectionHeaderLength im.wide, im.tableBytes⟩])[i]? := by
  rw [pieces_plan, bodyPiece, Nat.add_assoc, Nat.add_comm 1, List.getElem?_cons_succ,
    List.getElem?_append_right (Nat.le_add_right _ _), Nat.add_sub_cancel_left]

/-- The body of a section is a piece of the image. -/
theorem getElem?_body {im : Image} {i : Nat} {s : Section} (h : im.sections[i]? = some s) :
    im.plan.pieces[im.bodyPiece i]? = some s.body := by
  obtain ⟨hi, -⟩ := List.getElem?_eq_some_iff.mp h
  rw [getElem?_bodyPiece, List.getElem?_append_left (by simpa using hi), List.getElem?_map, h,
    Option.map_some]

/-- The section header table is where it is planned. -/
theorem getElem?_table (im : Image) : im.plan.pieces[im.tablePiece]? =
    some ⟨(im.sections.length + 1) * sectionHeaderLength im.wide, im.tableBytes⟩ := by
  rw [tablePiece, getElem?_bodyPiece, List.getElem?_append_right (by simp), List.length_map,
    Nat.sub_self]
  rfl

/-! ## Headers -/

/-- A written image starts with its header. -/
theorem exists_header {im : Image} {b : Bytes} (hb : im.plan.Written b) :
    ∃ h, im.headerBytes (im.plan.placement.offset im.tablePiece) = .ok h ∧
      ElfFile.bytesAt b 0 (headerLength im.wide) = .ok h := by
  obtain ⟨-, hemit⟩ := hb.piece_at im.getElem?_header
  exact ⟨_, hemit, hb.bytesAt im.getElem?_header hemit⟩

/-- The section header table of a written image ends where the image ends. -/
theorem table_end {im : Image} {b : Bytes} (hb : im.plan.Written b) :
    im.plan.placement.offset im.tablePiece
      + (im.sections.length + 1) * sectionHeaderLength im.wide = b.length := by
  rw [hb.length_eq]
  exact Plan.offset_add_size_last im.getElem?_table im.length_pieces.symm

/-- The length of a written image is in the range of lengths; a narrow image needs no assumption,
since the offset of its section header table and the number of its sections are checked. -/
theorem length_lt {im : Image} {b : Bytes} (hb : im.plan.Written b)
    (hlen : im.wide = true → b.length < ElfFile.lengthLimit) :
    b.length < ElfFile.lengthLimit := by
  cases hwide : im.wide with
  | true => exact hlen hwide
  | false =>
    -- the table starts below 2 ^ 32 and has fewer than 2 ^ 16 entries
    obtain ⟨h, hh, -⟩ := exists_header hb
    obtain ⟨count, hcount, hh⟩ := bind_eq_ok_iff.mp hh
    obtain ⟨_, -, hh⟩ := bind_eq_ok_iff.mp hh
    simp only [hwide] at hh
    obtain ⟨table, htable, -⟩ := bind_eq_ok_iff.mp hh
    have hend := table_end hb
    have hcount' := toNat_of_word16 hcount
    have htable' := toNat_of_word32 htable
    have := count.toNat_lt
    have := table.toNat_lt
    rw [hwide, sectionHeaderLength, if_neg Bool.false_ne_true] at hend
    rw [ElfFile.lengthLimit]
    omega

/-- Where the tables of an image are planned to be. -/
def layout (im : Image) : ElfFile.Layout :=
  im.layoutAt (im.plan.placement.offset im.tablePiece)

/-- The file of an image, as far as its first bytes tell. -/
def identified (im : Image) (b : Bytes) : ElfFile where
  content := b
  wide := im.wide
  highFirst := false
  osabi := im.osabi.toNat

/-- The file of an image, before its sections are read. -/
def file (im : Image) (b : Bytes) : ElfFile :=
  { im.identified b with machine := im.machine.toNat }

/-- The header begins with the identification. -/
theorem ident_prefix_headerBytes {im : Image} {tableOffset : Nat} {h : Bytes}
    (hh : im.headerBytes tableOffset = .ok h) : im.ident <+: h := by
  obtain ⟨_, -, hh⟩ := bind_eq_ok_iff.mp hh
  obtain ⟨_, -, hh⟩ := bind_eq_ok_iff.mp hh
  cases hwide : im.wide with
  | true =>
    simp only [hwide, if_true] at hh
    cases hh
    simp only [List.append_assoc, List.prefix_append]
  | false =>
    simp only [hwide] at hh
    obtain ⟨_, -, hh⟩ := bind_eq_ok_iff.mp hh
    cases hh
    simp only [List.append_assoc, List.prefix_append]

/-- A reader identifies a written image. -/
theorem identify_of_written {im : Image} {b : Bytes} (hb : im.plan.Written b) :
    ElfFile.identify b = .ok (im.identified b) := by
  obtain ⟨h, hh, hbytes⟩ := exists_header hb
  obtain ⟨rfl, -⟩ := ElfFile.bytesAt_eq_ok_iff.mp hbytes
  have hpre : im.ident <+: b := (ident_prefix_headerBytes hh).trans (List.take_prefix _ _)
  have hident : ElfFile.bytesAt b 0 16 = .ok im.ident :=
    ElfFile.bytesAt_eq_ok_iff.mpr ⟨(List.prefix_iff_eq_take.mp hpre).symm, im.length_ident⟩
  rw [ElfFile.identify, hident]
  cases hwide : im.wide with
  | true =>
    rw [ident, identified, hwide]
    rfl
  | false =>
    rw [ident, identified, hwide]
    rfl

/-- The header comes before the section header table. -/
theorem headerLength_le_tableOffset (im : Image) :
    headerLength im.wide ≤ im.plan.placement.offset im.tablePiece := by
  have h := Plan.offset_add_size_le_offset im.getElem?_header (j := im.tablePiece)
    (by rw [tablePiece, bodyPiece]; omega) (by rw [length_pieces]; omega)
  rwa [Plan.offset_zero, Nat.zero_add] at h

theorem headerLength_pos (wide : Bool) : 0 < headerLength wide := by
  cases wide <;> decide

/-- The places and sizes of the tables of a written image pass the checks of a reader. -/
theorem check_layout {im : Image} {b : Bytes} (hb : im.plan.Written b)
    (hlen : b.length < ElfFile.lengthLimit) (hsections : im.sections ≠ []) :
    im.layout.check im.wide = .ok () := by
  have hend := table_end hb
  have hstart := im.headerLength_le_tableOffset
  have hpos := headerLength_pos im.wide
  refine ElfFile.Layout.check_eq_ok ?_ ?_ ?_ ?_ ?_
  · show im.plan.placement.offset im.tablePiece < _
    omega
  · show (if im.programs = 0 then 0 else headerLength im.wide) < _
    split <;> omega
  · show 0 < im.plan.placement.offset im.tablePiece
    omega
  · show 1 < im.sections.length + 1
    have := List.length_pos_iff.mpr hsections
    omega
  · exact Nat.le_refl _

/-- A reader finds the machine and the tables of a written image. -/
theorem header_of_written {im : Image} {b : Bytes} (hb : im.plan.Written b)
    (hlen : b.length < ElfFile.lengthLimit) (hsections : im.sections ≠ []) :
    (im.identified b).header = .ok (im.file b, im.layout) := by
  obtain ⟨h, hh, hbytes⟩ := exists_header hb
  have hend := table_end hb
  obtain ⟨hversion, hmachine, hlayout⟩ := reads_headerBytes (r := []) (f := im.identified b)
    hh rfl rfl fun _ => Nat.lt_of_le_of_lt (by omega) (Nat.lt_trans hlen (by decide))
  rw [List.append_nil] at hversion hmachine hlayout
  have hcheck := check_layout hb hlen hsections
  rw [ElfFile.header_eq_ok hbytes hversion (by rw [hlayout]; exact hcheck), hmachine, hlayout]
  rfl

/-! ## Sections -/

/-- The sections that a reader finds in an image and the places of their names, the empty one
first. -/
def found (im : Image) : List (ElfFile.Section × Nat) :=
  (({} : SectionHeader).found 0 0, 0) :: im.sections.mapIdx fun i s =>
    (s.header.found (im.plan.placement.offset (im.bodyPiece i)) s.body.size, s.header.name.toNat)

/-- A reader finds one section more than the image has, the empty one. -/
theorem length_found (im : Image) : im.found.length = im.sections.length + 1 := by
  rw [found, List.length_cons, List.length_mapIdx]

/-- The section that a reader finds for a section of an image. -/
theorem getElem?_found {im : Image} {i : Nat} {s : Section} (h : im.sections[i]? = some s) :
    im.found[i + 1]? = some (s.header.found (im.plan.placement.offset (im.bodyPiece i)) s.body.size,
      s.header.name.toNat) := by
  rw [found, List.getElem?_cons_succ, List.getElem?_mapIdx, h, Option.map_some]

/-- The headers of sections one after another. -/
theorem tableFrom_eq_ok {wide : Bool} {places : Placement} {piece : Nat}
    {sections : List Section} {t : Bytes} (h : tableFrom wide places piece sections = .ok t) :
    ∃ records : List Bytes, records.flatten = t ∧ records.length = sections.length ∧
      ∀ {i : Nat} {s : Section}, sections[i]? = some s → ∃ c, records[i]? = some c ∧
        s.header.bytes wide (places.offset (piece + i)) s.body.size = .ok c := by
  induction sections generalizing piece t with
  | nil =>
    cases h
    exact ⟨[], rfl, rfl, fun hi => by simp at hi⟩
  | cons first rest ih =>
    obtain ⟨b, hb, h⟩ := bind_eq_ok_iff.mp h
    obtain ⟨c, hc, h⟩ := bind_eq_ok_iff.mp h
    cases h
    obtain ⟨records, rfl, hlen, hrecords⟩ := ih hc
    refine ⟨b :: records, rfl, congrArg (· + 1) hlen, fun {i s} hi => ?_⟩
    cases i with
    | zero =>
      cases hi
      exact ⟨b, rfl, hb⟩
    | succ i =>
      obtain ⟨c, hi, hc⟩ := hrecords (by simpa using hi)
      refine ⟨c, by simpa using hi, ?_⟩
      rwa [Nat.add_assoc, Nat.add_comm 1] at hc

/-- The records of a written section header table: that of the empty section, and one for each
section. -/
theorem exists_sectionRecords {im : Image} {b : Bytes} (hb : im.plan.Written b) :
    ∃ (null : Bytes) (records : List Bytes),
      ElfFile.bytesAt b im.layout.sections (im.layout.sectionCount * im.layout.sectionSize)
        = .ok (null :: records).flatten ∧
      (∀ r ∈ null :: records, r.length = sectionHeaderLength im.wide) ∧
      ({} : SectionHeader).bytes im.wide 0 0 = .ok null ∧
      ∀ {i : Nat} {s : Section}, im.sections[i]? = some s → ∃ c, records[i]? = some c ∧
        s.header.bytes im.wide (im.plan.placement.offset (im.bodyPiece i)) s.body.size = .ok c := by
  obtain ⟨-, hemit⟩ := hb.piece_at im.getElem?_table
  have hbytes := hb.bytesAt im.getElem?_table hemit
  obtain ⟨null, hnull, hemit⟩ := bind_eq_ok_iff.mp hemit
  obtain ⟨t, ht, hemit⟩ := bind_eq_ok_iff.mp hemit
  obtain ⟨records, rfl, hcount, hrecords⟩ := tableFrom_eq_ok ht
  refine ⟨null, records, ?_, ?_, hnull, hrecords⟩
  · rw [List.flatten_cons, Except.ok.inj hemit]
    exact hbytes
  · intro r hr
    rcases List.mem_cons.mp hr with rfl | hr
    · exact (writes_sectionHeader _ _ _ _).of_eq_ok hnull
    · obtain ⟨i, hi, rfl⟩ := List.getElem_of_mem hr
      obtain ⟨c, hc, hbytes⟩ := hrecords (List.getElem?_eq_getElem (hcount ▸ hi))
      rw [List.getElem?_eq_getElem hi] at hc
      exact Option.some.inj hc ▸ (writes_sectionHeader _ _ _ _).of_eq_ok hbytes

/-- The records of a written section header table, each with the header that it was written for. -/
theorem exists_records {im : Image} {b : Bytes} (hb : im.plan.Written b) :
    ∃ records : List Bytes,
      ElfFile.bytesAt b im.layout.sections (im.layout.sectionCount * im.layout.sectionSize)
        = .ok records.flatten ∧
      (∀ r ∈ records, r.length = sectionHeaderLength im.wide) ∧
      ∀ {i : Nat} {e : ElfFile.Section × Nat}, im.found[i]? = some e →
        ∃ s off size c, records[i]? = some c ∧ SectionHeader.bytes im.wide s off size = .ok c ∧
          e = (s.found off size, s.name.toNat) ∧ off + size ≤ b.length := by
  obtain ⟨null, records, hbytes, hlength, hnull, hrecords⟩ := exists_sectionRecords hb
  refine ⟨null :: records, hbytes, hlength, ?_⟩
  intro i e he
  cases i with
  | zero =>
    cases he
    exact ⟨{}, 0, 0, null, rfl, hnull, rfl, Nat.zero_le _⟩
  | succ i =>
    have hi : i < im.sections.length := by
      have := (List.getElem?_eq_some_iff.mp he).1
      rw [length_found] at this
      omega
    have hs := List.getElem?_eq_getElem hi
    obtain ⟨c, hc, hbytes⟩ := hrecords hs
    rw [getElem?_found hs] at he
    have hfit := (hb.piece_at (getElem?_body hs)).1
    exact ⟨_, _, _, c, hc, hbytes, (Option.some.inj he).symm, hfit⟩

/-- The size of a section of a written image fits a word. -/
theorem size_lt_wordRange {im : Image} {b : Bytes} (hb : im.plan.Written b)
    (hlen : b.length < ElfFile.lengthLimit) {i : Nat} {s : Section}
    (hs : im.sections[i]? = some s) : s.body.size < wordRange im.wide := by
  cases hwide : im.wide with
  | true =>
    have hfit := (hb.piece_at (getElem?_body hs)).1
    have hlimit : ElfFile.lengthLimit < wordRange true := by decide
    omega
  | false =>
    obtain ⟨records, -, -, hrecords⟩ := exists_records hb
    obtain ⟨header, off, size, c, -, hwrite, he, -⟩ := hrecords (getElem?_found hs)
    have hsize : s.body.size = size := congrArg (fun e => e.1.size) he
    rw [hwide] at hwrite
    obtain ⟨_, -, hwrite⟩ := bind_eq_ok_iff.mp hwrite
    obtain ⟨sizeWord, hword, -⟩ := bind_eq_ok_iff.mp hwrite
    rw [hsize, ← toNat_of_word32 hword]
    exact sizeWord.toNat_lt

/-- A reader finds the sections of a written image, each with the planned place of its body. -/
theorem headers_of_written {im : Image} {b : Bytes} (hb : im.plan.Written b)
    (hlen : b.length < ElfFile.lengthLimit) : (im.file b).headers im.layout = .ok im.found := by
  obtain ⟨records, hbytes, hrecords, hfound⟩ := exists_records hb
  refine ElfFile.headers_eq_ok (Nat.le_refl _) hbytes im.length_found fun {i e} he => ?_
  obtain ⟨s, off, size, c, hc, hwrite, rfl, hfit⟩ := hfound he
  have hlimit : b.length < UInt64.size := Nat.lt_trans hlen (by decide)
  have hread := reads_sectionHeader (r := (records.drop (i + 1)).flatten) (f := im.file b)
    hwrite rfl rfl (fun _ => by omega) (fun _ => by omega)
  have hdrop := drop_flatten_of_length hrecords hc
  rw [show im.layout.sectionSize = sectionHeaderLength im.wide from rfl, hdrop]
  refine ⟨hread.2, hread.1, ?_, ?_⟩
  · show off < _
    omega
  · show size < _
    omega

/-- **A reader finds what an image was made of**: the kind of file, the tables, and the sections. -/
theorem tables_of_written {im : Image} {b : Bytes} (hb : im.plan.Written b)
    (hlen : b.length < ElfFile.lengthLimit) (hsections : im.sections ≠ []) :
    ElfFile.tables b = .ok (im.file b, im.layout, im.found) := by
  rw [ElfFile.tables, identify_of_written hb, ok_bind, header_of_written hb hlen hsections,
    ok_bind]
  dsimp only
  rw [headers_of_written hb hlen, ok_bind]
  rfl

/-- What holds of each section that a reader finds, from what holds of each section of an image. -/
theorem forall₂_found {γ : Type} {im : Image} {P : Section → γ → Prop}
    {R : ElfFile.Section × Nat → γ → Prop} {l : List γ} (h : List.Forall₂ P im.sections l)
    (hR : ∀ {i : Nat} {s : Section} {c : γ}, im.sections[i]? = some s → P s c →
      R (s.header.found (im.plan.placement.offset (im.bodyPiece i)) s.body.size,
        s.header.name.toNat) c) : List.Forall₂ R (im.found.drop 1) l := by
  rw [found, List.drop_one, List.tail_cons, List.forall₂_iff_get]
  refine ⟨by rw [List.length_mapIdx, h.length_eq], fun i hi hi' => ?_⟩
  rw [List.length_mapIdx] at hi
  rw [List.get_eq_getElem, List.getElem_mapIdx]
  exact hR (List.getElem?_eq_getElem hi) (h.get hi hi')

/-- A reader finds the bodies of the sections. -/
theorem bodies_found {im : Image} {b : Bytes} (hb : im.plan.Written b) {bodies : List Bytes}
    (h : List.Forall₂ (fun s c => s.body.emit im.plan.placement = .ok c) im.sections bodies) :
    List.Forall₂ (fun e c => ElfFile.bytesAt b e.1.offset e.1.size = .ok c) (im.found.drop 1)
      bodies :=
  forall₂_found h fun hs hc => hb.bytesAt (getElem?_body hs) hc

/-- A reader finds the names of the sections. -/
theorem names_found {im : Image} {table : Bytes} {names : List Bytes} (hnull : NameAt table 0 [])
    (h : List.Forall₂ (fun s name => NameAt table s.header.name.toNat name) im.sections names) :
    List.Forall₂ (fun e name => NameAt table e.2 name) im.found ([] :: names) :=
  .cons hnull (forall₂_found h fun _ hname => hname)

/-- A reader finds a written image with the names of its sections, if it can find them and the
program headers. -/
theorem ofBytes_of_written {im : Image} {b : Bytes} (hb : im.plan.Written b)
    (hlen : b.length < ElfFile.lengthLimit) {names : List Bytes} {table programs : Bytes}
    {first : Section} (hfirst : im.sections[0]? = some first) (htype : first.header.type = 3)
    (htable : first.body.emit im.plan.placement = .ok table) (hnull : NameAt table 0 [])
    (hnames : List.Forall₂ (fun s name => NameAt table s.header.name.toNat name) im.sections names)
    (hprograms : ElfFile.bytesAt b im.layout.programs
      (im.layout.programCount * im.layout.programSize) = .ok programs)
    (hwide : im.wide = false ∨ im.programs = 0) :
    ElfFile.ofBytes b = .ok { im.file b with
      sections := List.zipWith (fun e name => { e.1 with name := name.takeWhile (· != 0) })
        im.found ([] :: names) } := by
  have hsections : im.sections ≠ [] := by
    rintro h
    rw [h] at hfirst
    cases hfirst
  rw [ElfFile.ofBytes, identify_of_written hb, ok_bind, header_of_written hb hlen hsections,
    ok_bind]
  dsimp only
  rw [ElfFile.checkPrograms_eq_ok hprograms hwide, ok_bind,
    ElfFile.manySections_of_pos (Nat.succ_pos _), ok_bind, headers_of_written hb hlen, ok_bind,
    ElfFile.nameSections_eq_ok rfl (getElem?_found hfirst) (congrArg UInt32.toNat htype)
      (hb.bytesAt (getElem?_body hfirst) htable) (names_found hnull hnames), ok_bind]
  rfl

/-! ## Files -/

/-- The file of an image whose sections have the given names. -/
def fileWith (im : Image) (names : List Bytes) (b : Bytes) : ElfFile :=
  { im.file b with
    sections := List.zipWith (fun e name => { e.1 with name := name.takeWhile (· != 0) })
      im.found ([] :: names) }

section

variable {im : Image} {b : Bytes} {names : List Bytes}

/-- The section of a file for a section of its image. -/
theorem getElem?_fileWith {i : Nat} {s : Section} {name : Bytes} (hs : im.sections[i]? = some s)
    (hname : names[i]? = some name) : (im.fileWith names b).sections[i + 1]? = some
      { s.header.found (im.plan.placement.offset (im.bodyPiece i)) s.body.size with
        name := name.takeWhile (· != 0) } := by
  simp only [fileWith, List.getElem?_zipWith, getElem?_found hs, List.getElem?_cons_succ, hname]

/-- A reader finds the symbols of a written image by the headers of their table and of the table of
their names. -/
theorem symbols_fileWith (hb : im.plan.Written b) {i j : Nat} {table text : Section}
    {symbols : List SymbolEntry} {strings tableName textName : Bytes}
    (htable : im.sections[i]? = some table) (hname : names[i]? = some tableName)
    (hbody : table.body = symbolTable im.wide ({} :: symbols))
    (hfind : (im.fileWith names b).sections.find? (·.type = 2)
      = (im.fileWith names b).sections[i + 1]?)
    (hlink : table.header.link.toNat = j + 1) (htext : im.sections[j]? = some text)
    (hname' : names[j]? = some textName) (htype : text.header.type.toNat ≠ 8)
    (hstrings : text.body.emit im.plan.placement = .ok strings) :
    (im.fileWith names b).symbols = .ok ((symbols.map (·.bytes im.wide)).map
      ((im.fileWith names b).symbolOf strings)) := by
  have hrecords := hb.bytesAt (getElem?_body htable) (congrArg (·.emit im.plan.placement) hbody)
  change _ = Except.ok ((({} : SymbolEntry) :: symbols).flatMap (·.bytes im.wide)) at hrecords
  rw [List.flatMap_def] at hrecords
  rw [getElem?_fileWith htable hname] at hfind
  have hlength : ∀ r ∈ (({} : SymbolEntry) :: symbols).map (·.bytes im.wide),
      r.length = (im.fileWith names b).symbolSize := by
    intro r hr
    obtain ⟨s, -, rfl⟩ := List.mem_map.mp hr
    exact length_symbolBytes im.wide s
  have hlinked := getElem?_fileWith (b := b) htext hname'
  rw [← hlink] at hlinked
  have hne : table.header.link.toNat ≠ 0 := by
    rw [hlink]
    exact Nat.succ_ne_zero j
  exact ElfFile.symbols_eq_ok hfind hrecords hlength (List.cons_ne_nil _ _) hne hlinked htype
    (hb.bytesAt (getElem?_body htext) hstrings)

end

/-! ## Extents -/

/-- The bodies of the sections fill the space before the section header table. -/
theorem tiles_bodies (im : Image) :
    Tiles (im.plan.placement.offset (im.bodyPiece 0)) (im.plan.placement.offset im.tablePiece)
      ((im.found.drop 1).map fun e => (e.1.offset, e.1.size)) := by
  have hlength : ((im.found.drop 1).map fun e => (e.1.offset, e.1.size)).length
      = im.sections.length := by
    rw [List.length_map, List.length_drop, length_found, Nat.add_sub_cancel]
  rw [tablePiece, ← hlength]
  refine tiles_of_forall (fun i => im.plan.placement.offset (im.bodyPiece i)) ?_
  intro i e he
  have hi := (List.getElem?_eq_some_iff.mp he).1
  rw [hlength] at hi
  have hs := List.getElem?_eq_getElem hi
  rw [List.getElem?_map, List.getElem?_drop, Nat.add_comm, getElem?_found hs] at he
  cases he
  refine ⟨rfl, Plan.offset_add_one (getElem?_body hs) ?_⟩
  show im.bodyPiece i + 1 < _
  rw [length_pieces, tablePiece]
  unfold bodyPiece
  omega

end Elf.Image

/-- The bodies of extra sections are what was given for them. -/
theorem Elf.bodies_extras {places : Placement} {given : List ExtraSection} {made : List Section}
    (h : List.Forall₂ (fun s sec => sec.body = .ofBytes (s.data.getD [])) given made) :
    List.Forall₂ (fun sec c => sec.body.emit places = .ok c) made
      (given.map (·.data.getD [])) := by
  rw [List.forall₂_map_right_iff]
  refine (h.imp fun s sec hbody => ?_).flip
  show sec.body.emit places = .ok (s.data.getD [])
  rw [hbody]
  rfl

/-- The parts of a file by its tables: the header, the bodies of the sections and the section header
table, each with its offset and its length. -/
def ElfFile.extents (f : ElfFile) (l : Layout) (found : List (Section × Nat)) :
    List (Nat × Nat) :=
  (0, if f.wide then 64 else 52) :: (found.drop 1).map (fun e => (e.1.offset, e.1.size)) ++
    [(l.sections, l.sectionCount * l.sectionSize)]

/-- **An image of sections has no gaps**: its header, the bodies of its sections and its section
header table fill the file. -/
theorem Elf.Image.tiles_extents {im : Image} {b : Bytes} (hb : im.plan.Written b)
    (hfront : im.front = []) : Tiles 0 b.length ((im.file b).extents im.layout im.found) := by
  have hstart : im.plan.placement.offset (im.bodyPiece 0) = headerLength im.wide := by
    have h := Plan.offset_add_one im.getElem?_header
      (by rw [length_pieces, tablePiece, bodyPiece]; omega)
    simp only [Plan.offset_zero, Nat.zero_add] at h
    rw [bodyPiece, hfront]
    exact h
  have hbodies := im.tiles_bodies
  rw [hstart] at hbodies
  have htable : Tiles (im.plan.placement.offset im.tablePiece) b.length
      [(im.layout.sections, im.layout.sectionCount * im.layout.sectionSize)] :=
    ⟨rfl, table_end hb⟩
  refine ⟨rfl, ?_⟩
  rw [Nat.zero_add]
  exact hbodies.append htable

end CatalystAsm
