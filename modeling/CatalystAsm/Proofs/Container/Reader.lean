import CatalystAsm.Proofs.Container.Record

/-!
# Reading ELF files

What each step of reading an ELF file asks for, and what it then finds: the file header
(`ElfFile.header_eq_ok`), the section headers (`ElfFile.headers_eq_ok`), the names of the sections
(`ElfFile.nameSections_eq_ok`) and the symbols (`ElfFile.symbols_eq_ok`).
-/

namespace CatalystAsm

/-- A number is in the range of its bytes. -/
theorem Bytes.ofLittleEndian_lt (b : Bytes) : ofLittleEndian b < Nat.pow 256 b.length := by
  induction b with
  | nil => exact Nat.one_pos
  | cons c rest ih =>
    have hc := c.toNat_lt
    rw [ofLittleEndian, List.length_cons,
      show Nat.pow 256 (rest.length + 1) = Nat.pow 256 rest.length * 256 from rfl]
    omega

namespace ElfFile

/-- One more than the largest length of a file, which is a signed number of 64 bits. -/
def lengthLimit : Nat := 0x8000000000000000

/-- Reads the file header and the section header table. -/
def tables (content : Bytes) : Except Fault (ElfFile × Layout × List (Section × Nat)) := do
  let f ← identify content
  let (f, l) ← f.header
  let found ← f.headers l
  return (f, l, found)

theorem bytesAt_eq_ok_iff {b c : Bytes} {off n : Nat} :
    bytesAt b off n = .ok c ↔ (b.drop off).take n = c ∧ c.length = n := by
  rw [bytesAt]
  split
  · rename_i hlen
    constructor
    · rintro ⟨⟩
      exact ⟨rfl, hlen⟩
    · rintro ⟨rfl, -⟩
      rfl
  · rename_i hlen
    constructor
    · rintro ⟨⟩
    · rintro ⟨rfl, hc⟩
      exact absurd hc hlen

theorem bytesAt_of_le {b : Bytes} {off n : Nat} (h : off + n ≤ b.length) :
    bytesAt b off n = .ok ((b.drop off).take n) := by
  refine bytesAt_eq_ok_iff.mpr ⟨rfl, ?_⟩
  rw [List.length_take, List.length_drop]
  omega

/-- Two slices next to each other. -/
theorem bytesAt_append {b c d : Bytes} {off n k : Nat} (hc : bytesAt b off n = .ok c)
    (hd : bytesAt b (off + n) k = .ok d) : bytesAt b off (n + k) = .ok (c ++ d) := by
  obtain ⟨rfl, hc⟩ := bytesAt_eq_ok_iff.mp hc
  obtain ⟨rfl, hd⟩ := bytesAt_eq_ok_iff.mp hd
  refine bytesAt_eq_ok_iff.mpr ⟨?_, by rw [List.length_append, hc, hd]⟩
  rw [List.take_add, List.drop_drop]

/-- A number is in the range of its width. -/
theorem number_lt (f : ElfFile) (record : Bytes) (off n : Nat) :
    f.number record off n < Nat.pow 256 n := by
  have hlen : ((record.drop off).take n).length ≤ n := by
    rw [List.length_take]
    omega
  refine Nat.lt_of_lt_of_le ?_ (Nat.pow_le_pow_right (by decide) hlen)
  rw [number]
  split
  · rw [← List.length_reverse]
    exact Bytes.ofLittleEndian_lt _
  · exact Bytes.ofLittleEndian_lt _

/-- A number in the range of lengths keeps its sign. -/
theorem signed_not_neg {n : Nat} (h : n < lengthLimit) : ¬ signed n < 0 := by
  have hpos : signed n = n := if_pos h
  omega

theorem refuse_of_eq_false {bad : Bool} (h : bad = false) (what : String) (value : Bytes)
    (place : Nat) : refuse bad what value place = .ok () := by
  rw [h]
  rfl

/-- What the checks of places and sizes ask for. -/
theorem Layout.check_eq_ok {l : Layout} {wide : Bool} (hsections : l.sections < lengthLimit)
    (hprograms : l.programs < lengthLimit) (hpos : 0 < l.sections)
    (hnames : l.names < l.sectionCount)
    (hsize : (if wide then 56 else 32) ≤ l.programSize) : l.check wide = .ok () := by
  have h1 : decide (signed l.sections < 0) = false := decide_eq_false (signed_not_neg hsections)
  have h2 : decide (signed l.programs < 0) = false := decide_eq_false (signed_not_neg hprograms)
  have h3 : (decide (l.sections = 0) && decide (l.sectionCount ≠ 0)) = false := by
    rw [decide_eq_false (by omega), Bool.false_and]
  have h4 : (decide (0 < l.sectionCount) && decide (l.sectionCount ≤ l.names)) = false := by
    rw [decide_eq_false (by omega : ¬ l.sectionCount ≤ l.names), Bool.and_false]
  have h5 : (decide (0 < l.programCount) && decide (l.programSize < if wide then 56 else 32))
      = false := by
    rw [decide_eq_false (Nat.not_lt.mpr hsize), Bool.and_false]
  rw [check, refuse_of_eq_false h1, ok_bind, refuse_of_eq_false h2, ok_bind,
    refuse_of_eq_false h3, ok_bind, refuse_of_eq_false h4, ok_bind, refuse_of_eq_false h5]

/-- What reading the file header asks for. -/
theorem header_eq_ok {f : ElfFile} {h : Bytes}
    (hbytes : bytesAt f.content 0 (if f.wide then 64 else 52) = .ok h)
    (hversion : f.number h 20 4 = 1) (hcheck : (f.layoutOf h).check f.wide = .ok ()) :
    f.header = .ok ({ f with machine := f.number h 18 2 }, f.layoutOf h) := by
  rw [header, hbytes, ok_bind]
  dsimp only
  rw [hversion, refuse_of_eq_false (by decide), ok_bind, hcheck, ok_bind]
  rfl

/-- What reading the section headers asks for: records with offsets and sizes in range. -/
theorem headers_eq_ok {f : ElfFile} {l : Layout} {table : Bytes} {found : List (Section × Nat)}
    (hsize : (if f.wide then 64 else 40) ≤ l.sectionSize)
    (hbytes : bytesAt f.content l.sections (l.sectionCount * l.sectionSize) = .ok table)
    (hcount : found.length = l.sectionCount)
    (hfound : ∀ {i : Nat} {e : Section × Nat}, found[i]? = some e →
      f.sectionOf (table.drop (i * l.sectionSize)) = e.1 ∧
        f.number (table.drop (i * l.sectionSize)) 0 4 = e.2 ∧
        e.1.offset < lengthLimit ∧ e.1.size < lengthLimit) : f.headers l = .ok found := by
  have hrefuse : (decide (0 < l.sectionCount) &&
      decide (l.sectionSize < if f.wide then 64 else 40)) = false := by
    rw [decide_eq_false (Nat.not_lt.mpr hsize), Bool.and_false]
  rw [headers, refuse_of_eq_false hrefuse, ok_bind, hbytes, ok_bind, mapM_eq_ok_iff,
    List.forall₂_iff_get]
  refine ⟨by rw [List.length_range, hcount], fun i _ hi => ?_⟩
  obtain ⟨hsection, hname, hoff, hlen⟩ := hfound (List.getElem?_eq_getElem hi)
  rw [List.get_eq_getElem, List.get_eq_getElem, List.getElem_range]
  dsimp only
  rw [hsection, hname, refuse_of_eq_false (decide_eq_false (signed_not_neg hoff)), ok_bind,
    refuse_of_eq_false (decide_eq_false (signed_not_neg hlen)), ok_bind]
  rfl

/-- The program headers of a narrow file, and no program headers, pass the checks of a reader. -/
theorem checkPrograms_eq_ok {f : ElfFile} {l : Layout} {table : Bytes}
    (hbytes : bytesAt f.content l.programs (l.programCount * l.programSize) = .ok table)
    (hwide : f.wide = false ∨ l.programCount = 0) : f.checkPrograms l = .ok () := by
  rw [checkPrograms, hbytes, ok_bind]
  rcases hwide with hwide | hcount
  · have hword (record : Bytes) (narrow wide : Nat) : f.word record narrow wide < lengthLimit := by
      rw [word, hwide]
      exact Nat.lt_trans (f.number_lt record narrow 4) (by decide)
    rw [forIn_eq_ok fun i _ => ?_, ok_bind]
    · rfl
    · dsimp only
      rw [refuse_of_eq_false (decide_eq_false (signed_not_neg (hword _ 4 8))), ok_bind,
        refuse_of_eq_false (decide_eq_false (signed_not_neg (hword _ 16 32))), ok_bind]
      rfl
  · rw [hcount]
    rfl

/-- What reading the program headers asks for: a table of records. -/
theorem programs_eq_ok {f : ElfFile} {l : Layout} {records : List Bytes}
    (hbytes : bytesAt f.content l.programs (l.programCount * l.programSize) = .ok records.flatten)
    (hrecords : ∀ r ∈ records, r.length = l.programSize)
    (hcount : records.length = l.programCount) :
    f.programs l = .ok (records.map f.programOf) := by
  rw [programs, hbytes, ok_bind, ← hcount, recordsOf_flatten hrecords]
  rfl

/-- A file with some sections has its number of sections in the file header. -/
theorem manySections_of_pos {f : ElfFile} {l : Layout} (h : 0 < l.sectionCount) :
    f.manySections l = .ok l := by
  have hreturn : (decide (l.sections = 0) || decide (l.sectionCount ≠ 0)) = true := by
    rw [decide_eq_true (Nat.ne_of_gt h), Bool.or_true]
  rw [manySections, if_pos hreturn]
  rfl

/-- The body of a section whose bytes are in the file. -/
theorem body_eq_ok {f : ElfFile} {s : Section} {c : Bytes} (htype : s.type ≠ 8)
    (h : bytesAt f.content s.offset s.size = .ok c) : f.body s = .ok c := by
  obtain ⟨rfl, hlen⟩ := bytesAt_eq_ok_iff.mp h
  have hread : (decide (s.type = 8) && decide (s.size ≠ 0)) = false := by
    rw [decide_eq_false htype, Bool.false_and]
  rw [body, hread, if_neg Bool.false_ne_true, if_pos hlen]

/-- What giving names to sections asks for: a table of strings that has all the names. -/
theorem nameSections_eq_ok {f : ElfFile} {l : Layout} {found : List (Section × Nat)}
    {names : List Bytes} {t : Section} {place : Nat} {table : Bytes} (hl : l.names = 1)
    (ht : found[1]? = some (t, place)) (htype : t.type = 3)
    (hbytes : bytesAt f.content t.offset t.size = .ok table)
    (hnames : List.Forall₂ (fun e name => NameAt table e.2 name) found names) :
    f.nameSections l found = .ok (List.zipWith
      (fun e name => { e.1 with name := name.takeWhile (· != 0) }) found names) := by
  rw [nameSections, hl, if_neg Nat.one_ne_zero, ht]
  dsimp only
  rw [refuse_of_eq_false (decide_eq_false (not_not.mpr htype)), ok_bind,
    body_eq_ok (by omega) hbytes, ok_bind, mapM_eq_ok_iff, List.forall₂_iff_get]
  have hlen := hnames.length_eq
  refine ⟨by rw [List.length_zipIdx, List.length_zipWith, hlen, Nat.min_self], fun i hi _ => ?_⟩
  rw [List.length_zipIdx] at hi
  have hname := hnames.get hi (hlen ▸ hi)
  simp only [List.get_eq_getElem, List.getElem_zipIdx, List.getElem_zipWith] at hname ⊢
  rw [hname.textAt?]
  rfl

theorem symbolSize_pos (f : ElfFile) : 0 < f.symbolSize := by
  rw [symbolSize]
  split <;> decide

/-- The length of a table of symbols. -/
theorem length_flatten_symbols {f : ElfFile} {records : List Bytes}
    (h : ∀ r ∈ records, r.length = f.symbolSize) :
    records.flatten.length = records.length * f.symbolSize := by
  rw [List.length_flatten, List.map_congr_left h, List.map_const', List.sum_replicate_nat]

/-- The records of a table of symbols are what the table was made of. -/
theorem symbolRecords_flatten {f : ElfFile} {records : List Bytes}
    (h : ∀ r ∈ records, r.length = f.symbolSize) : f.symbolRecords records.flatten = records := by
  rw [symbolRecords, length_flatten_symbols h, Nat.mul_div_cancel _ f.symbolSize_pos,
    recordsOf_flatten h]

/-- What reading the symbols asks for: a table of records and a table of their names. -/
theorem symbols_eq_ok {f : ElfFile} {table strings : Section} {records : List Bytes}
    {names : Bytes} (hfind : f.sections.find? (·.type = 2) = some table)
    (hbytes : bytesAt f.content table.offset table.size = .ok records.flatten)
    (hrecords : ∀ r ∈ records, r.length = f.symbolSize) (hne : records ≠ [])
    (hlink : table.link ≠ 0) (hstrings : f.sections[table.link]? = some strings)
    (htype : strings.type ≠ 8)
    (hnames : bytesAt f.content strings.offset strings.size = .ok names) :
    f.symbols = .ok ((records.drop 1).map (f.symbolOf names)) := by
  have htable : table.type = 2 := by
    have h := List.find?_some hfind
    exact of_decide_eq_true h
  have hlen := length_flatten_symbols hrecords
  have hdata : records.flatten.isEmpty = false := by
    rw [List.isEmpty_eq_false_iff, ← List.length_pos_iff, hlen]
    exact Nat.mul_pos (List.length_pos_iff.mpr hne) f.symbolSize_pos
  have hnamed : f.stringsOf table = .ok names := by
    rw [stringsOf, if_neg hlink, hstrings]
    dsimp only
    rw [body_eq_ok htype hnames]
    rfl
  rw [symbols, hfind]
  dsimp only
  rw [body_eq_ok (by omega) hbytes, Except.mapError, ok_bind, hdata, if_neg Bool.false_ne_true,
    hlen, Nat.mul_mod_left, if_neg (not_not.mpr rfl), hnamed, ok_bind,
    symbolRecords_flatten hrecords]
  rfl

end ElfFile

/-! ## Symbol tables -/

namespace Elf

theorem symbolSize_eq {f : ElfFile} {wide : Bool} (hw : f.wide = wide) :
    f.symbolSize = symbolLength wide := by
  rw [ElfFile.symbolSize, symbolLength, hw]

/-- A reader finds a record for each symbol of a table. -/
theorem symbolRecords_symbols {f : ElfFile} {wide : Bool} (hw : f.wide = wide)
    (symbols : List SymbolEntry) :
    f.symbolRecords (symbols.flatMap (·.bytes wide)) = symbols.map (·.bytes wide) := by
  rw [List.flatMap_def]
  refine ElfFile.symbolRecords_flatten fun r hr => ?_
  obtain ⟨s, -, rfl⟩ := List.mem_map.mp hr
  rw [length_symbolBytes, symbolSize_eq hw]

/-- A reader finds the names of the symbols of a table. -/
theorem names_symbolRecords {f : ElfFile} {wide : Bool} (hf : f.highFirst = false)
    (hw : f.wide = wide) {symbols : List SymbolEntry} {names : List Bytes} {strings : Bytes}
    (h : List.Forall₂ (fun s name => NameAt strings s.name.toNat name) symbols names) :
    List.Forall₂ (fun record name => NameAt strings (f.number record 0 4) name)
      (f.symbolRecords (symbols.flatMap (·.bytes wide))) names := by
  rw [symbolRecords_symbols hw, List.forall₂_map_left_iff]
  refine h.imp fun s name hname => ?_
  have hread := (reads_symbolBytes wide s (r := []) hf hw strings).1
  rw [List.append_nil] at hread
  rwa [hread]

/-- A reader finds each symbol of a table with its name. -/
theorem getElem?_symbolOf {f : ElfFile} {wide : Bool} (hf : f.highFirst = false)
    (hw : f.wide = wide) {symbols : List SymbolEntry} {names : List Bytes} {strings : Bytes}
    (h : List.Forall₂ (fun s name => NameAt strings s.name.toNat name) symbols names) {i : Nat}
    {s : SymbolEntry} {name : Bytes} (hs : symbols[i]? = some s) (hname : names[i]? = some name) :
    ((symbols.map (·.bytes wide)).map (f.symbolOf strings))[i]? = some
      { name := name.takeWhile (· != 0), value := s.value.toNat % wordRange wide,
        size := s.size.toNat % wordRange wide, home := s.index % UInt16.size } := by
  obtain ⟨found, hfound, hat⟩ := exists_getElem?_of_forall₂ h hs
  rw [hname] at hfound
  cases hfound
  have hread := (reads_symbolBytes wide s (r := []) hf hw strings).2
  rw [List.append_nil, hat.textAt?] at hread
  rw [List.getElem?_map, List.getElem?_map, hs, Option.map_some, Option.map_some, hread]
  rfl

end Elf

end CatalystAsm
