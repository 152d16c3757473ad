import CatalystAsm.Proofs.Container.Export

/-!
# Section numbers of symbols

The section of a symbol is written as a number of 16 bits, of which those from `0xff00` on are
reserved. A binary and a kernel image number their sections in the same way (`Elf.Numbered`): fixed
sections first, extra sections behind them. The number of sections is kept below 65536 only, so the
last extra sections of a very long list get reserved numbers, one of them the number of absolute
symbols.
-/

namespace CatalystAsm

/-- Tags are told apart by their numbers. -/
theorem SectionTag.eq_iff {t u : SectionTag} : t = u ↔ t.id.toNat = u.id.toNat := by
  rw [UInt32.toNat_inj]
  constructor
  · rintro rfl
    rfl
  · intro h
    cases t
    cases u
    exact congrArg SectionTag.mk h

theorem SectionTag.toNat_null : SectionTag.null.id.toNat = 0xfffffffd := rfl

theorem SectionTag.toNat_absolute : SectionTag.absolute.id.toNat = 0xfffffffe := rfl

/-- Tags that mean a section are those below the last few. -/
theorem SectionTag.ne_of_lt {t : SectionTag} (h : t.id.toNat < SectionTag.null.id.toNat) :
    t ≠ .null ∧ t ≠ .absolute := by
  simp only [ne_eq, SectionTag.eq_iff, toNat_null, toNat_absolute] at h ⊢
  omega

namespace Elf

/-- The first number that is reserved and means no section. -/
def firstReserved : Nat := 0xff00

/-- A section that every image of a kind has: the tag, the number and the name of it. -/
structure FixedSection where
  tag : SectionTag
  number : Nat
  name : Bytes
  deriving DecidableEq

variable {im : Image} {names : Bytes} {fixed : List FixedSection} {extras : List Section}
  {first : Nat} {tag : SectionTag} {number : Nat}

/-- What the number of a section tells about the tag that it stands for. -/
structure Tells (im : Image) (names : Bytes) (fixed : List FixedSection) (extras : List Section)
    (first : Nat) (tag : SectionTag) (number : Nat) : Prop where
  null_iff : number = indexUndefined ↔ tag = .null
  absolute_iff : number = indexAbsolute ↔
    tag = .absolute ∨ tag.id.toNat < extras.length ∧ first + tag.id.toNat = indexAbsolute
  reserved_iff : firstReserved ≤ number ↔
    tag = .absolute ∨ tag.id.toNat < extras.length ∧ firstReserved ≤ first + tag.id.toNat
  /-- it is the number of the section that the tag means -/
  section_of : tag ≠ .null → tag ≠ .absolute → ∃ s, im.sections[number - 1]? = some s ∧
    (extras[tag.id.toNat]? = some s ∨
      ∃ e ∈ fixed, e.tag = tag ∧ NameAt names s.header.name.toNat e.name)

/-- The numbers that `indexOf` gives to tags, as a reader finds them in the symbols of an image. -/
structure Numbered (im : Image) (names : Bytes) (fixed : List FixedSection)
    (extras : List Section) (first : Nat) (indexOf : SectionTag → Option Nat) : Prop where
  isSome_iff (tag : SectionTag) : (indexOf tag).isSome = true ↔
    tag = .null ∨ tag = .absolute ∨ (∃ e ∈ fixed, e.tag = tag) ∨ tag.id.toNat < extras.length
  tells (f : ElfFile) (strings : Bytes) (tag : SectionTag) (s : SymbolEntry) :
    f.highFirst = false → indexOf tag = some s.index →
      Tells im names fixed extras first tag (f.symbolOf strings (s.bytes f.wide)).home
  distinct (f : ElfFile) (strings : Bytes) (t u : SectionTag) (a b : SymbolEntry) :
    f.highFirst = false → indexOf t = some a.index → indexOf u = some b.index →
      t.id.toNat < extras.length → u.id.toNat < extras.length →
        (f.symbolOf strings (a.bytes f.wide)).home = (f.symbolOf strings (b.bytes f.wide)).home →
          t = u

/-- The number of the section that a tag means, looked up in the table of the fixed sections. -/
def numberOf (fixed : List FixedSection) (first extras : Nat) (tag : SectionTag) : Option Nat :=
  if tag = .null then some indexUndefined
  else if tag = .absolute then some indexAbsolute
  else match fixed.find? (tag = ·.tag) with
    | some e => some e.number
    | none => if tag.id.toNat < extras then some (first + tag.id.toNat) else none

/-- The four ways in which a tag gets a number. -/
inductive HasNumber (fixed : List FixedSection) (first extras : Nat) : SectionTag → Nat → Prop
  | null : HasNumber fixed first extras .null indexUndefined
  | absolute : HasNumber fixed first extras .absolute indexAbsolute
  | fixed {e : FixedSection} : e ∈ fixed → HasNumber fixed first extras e.tag e.number
  | extra {tag : SectionTag} : tag.id.toNat < extras →
    HasNumber fixed first extras tag (first + tag.id.toNat)

/-- A fixed section is where its number says. -/
structure FixedSection.Stands (im : Image) (names : Bytes) (first : Nat) (e : FixedSection) :
    Prop where
  number : 0 < e.number ∧ e.number < first
  /-- the tag is none of those of extra sections, and it means a section -/
  tag : UInt16.size ≤ e.tag.id.toNat ∧ e.tag.id.toNat < SectionTag.null.id.toNat
  name_at : ∃ s, im.sections[e.number - 1]? = some s ∧ NameAt names s.header.name.toNat e.name

/-- A reader finds the number of a symbol's section, if it has 16 bits. -/
theorem home_eq {f : ElfFile} (hf : f.highFirst = false) (strings : Bytes) (s : SymbolEntry)
    (hs : s.index < UInt16.size) : (f.symbolOf strings (s.bytes f.wide)).home = s.index := by
  have h := (reads_symbolBytes f.wide s (r := []) hf rfl strings).2
  rw [List.append_nil] at h
  rw [h]
  exact Nat.mod_eq_of_lt hs

/-- With one entry for each tag, the search for a tag finds exactly the entry of it. -/
theorem find?_eq_some_iff_tag (hunique : ∀ d ∈ fixed, ∀ e ∈ fixed, d.tag = e.tag → d = e)
    {e : FixedSection} : fixed.find? (tag = ·.tag) = some e ↔ e ∈ fixed ∧ tag = e.tag := by
  constructor
  · intro h
    exact ⟨List.mem_of_find?_eq_some h, by simpa using List.find?_some h⟩
  · rintro ⟨he, rfl⟩
    have hsome : (fixed.find? (e.tag = ·.tag)).isSome = true := by
      rw [List.find?_isSome]
      exact ⟨e, he, by simp⟩
    obtain ⟨d, hd⟩ := Option.isSome_iff_exists.mp hsome
    have htag : e.tag = d.tag := by simpa using List.find?_some hd
    obtain rfl := hunique e he d (List.mem_of_find?_eq_some hd) htag
    exact hd

/-- Every number is got in one of the four ways, and each way gives the number. -/
theorem numberOf_eq_some_iff (hfixed : ∀ e ∈ fixed, e.Stands im names first)
    (hunique : ∀ d ∈ fixed, ∀ e ∈ fixed, d.tag = e.tag → d = e) {n : Nat}
    (hcount : first + n < UInt16.size) (tag : SectionTag) (number : Nat) :
    numberOf fixed first n tag = some number ↔ HasNumber fixed first n tag number := by
  constructor
  · intro h
    unfold numberOf at h
    split at h
    · rename_i htag
      cases h
      exact htag ▸ .null
    · split at h
      · rename_i htag
        cases h
        exact htag ▸ .absolute
      · split at h
        · rename_i e he
          cases h
          obtain ⟨hmem, rfl⟩ := (find?_eq_some_iff_tag hunique).mp he
          exact .fixed hmem
        · split at h
          · rename_i htag
            cases h
            exact .extra htag
          · cases h
  · intro h
    cases h with
    | null => rfl
    | absolute => rfl
    | @fixed e he =>
      have hne := SectionTag.ne_of_lt (hfixed e he).tag.2
      have hfind := (find?_eq_some_iff_tag hunique).mpr ⟨he, rfl⟩
      rw [numberOf, if_neg hne.1, if_neg hne.2, hfind]
    | extra htag =>
      have hsmall : tag.id.toNat < UInt16.size := by omega
      have hne := SectionTag.ne_of_lt (Nat.lt_trans hsmall (by decide))
      have hnone : fixed.find? (fun e => tag = e.tag) = none := by
        rw [List.find?_eq_none]
        intro e he htag
        have hlarge := (hfixed e he).tag.1
        rw [← of_decide_eq_true htag] at hlarge
        omega
      rw [numberOf, if_neg hne.1, if_neg hne.2, hnone]
      exact if_pos htag

/-- The ranges of tags and numbers in the four ways. -/
theorem HasNumber.ranges {n : Nat} (hfixed : ∀ e ∈ fixed, e.Stands im names first)
    (h : HasNumber fixed first n tag number) :
    tag.id.toNat = 0xfffffffd ∧ number = 0 ∨ tag.id.toNat = 0xfffffffe ∧ number = 0xfff1 ∨
      (0x10000 ≤ tag.id.toNat ∧ tag.id.toNat < 0xfffffffd) ∧ 0 < number ∧ number < first ∨
      tag.id.toNat < n ∧ number = first + tag.id.toNat := by
  cases h with
  | null => exact .inl ⟨rfl, rfl⟩
  | absolute => exact .inr (.inl ⟨rfl, rfl⟩)
  | fixed he => exact .inr (.inr (.inl ⟨(hfixed _ he).tag, (hfixed _ he).number⟩))
  | extra htag => exact .inr (.inr (.inr ⟨htag, rfl⟩))

/-- Every number of a section has 16 bits. -/
theorem HasNumber.lt {n : Nat} (hfixed : ∀ e ∈ fixed, e.Stands im names first)
    (hcount : first + n < UInt16.size) (h : HasNumber fixed first n tag number) :
    number < UInt16.size := by
  have hranges := h.ranges hfixed
  simp only [UInt16.size] at hcount ⊢
  omega

/-- The tag of an extra section has the number behind those of the fixed ones. -/
theorem HasNumber.eq_add {n : Nat} (hfixed : ∀ e ∈ fixed, e.Stands im names first)
    (hcount : first + n < UInt16.size) (htag : tag.id.toNat < n)
    (h : HasNumber fixed first n tag number) : number = first + tag.id.toNat := by
  have hranges := h.ranges hfixed
  simp only [UInt16.size] at hcount
  omega

/-- The section with the number of a tag is the one that the tag means. -/
theorem HasNumber.exists_section (hfixed : ∀ e ∈ fixed, e.Stands im names first)
    (hextras : ∀ i : Nat, im.sections[first - 1 + i]? = extras[i]?) (hfirst : 0 < first)
    (h : HasNumber fixed first extras.length tag number) (hnull : tag ≠ .null)
    (habsolute : tag ≠ .absolute) : ∃ s, im.sections[number - 1]? = some s ∧
      (extras[tag.id.toNat]? = some s ∨
        ∃ e ∈ fixed, e.tag = tag ∧ NameAt names s.header.name.toNat e.name) := by
  cases h with
  | null => exact absurd rfl hnull
  | absolute => exact absurd rfl habsolute
  | fixed he =>
    obtain ⟨s, hs, hname⟩ := (hfixed _ he).name_at
    exact ⟨s, hs, .inr ⟨_, he, rfl, hname⟩⟩
  | extra htag =>
    refine ⟨extras[tag.id.toNat], ?_, .inl (List.getElem?_eq_getElem htag)⟩
    rw [show first + tag.id.toNat - 1 = first - 1 + tag.id.toNat by omega, hextras,
      List.getElem?_eq_getElem htag]

/-- A number tells the tag that it was made of. -/
theorem HasNumber.tells (hfixed : ∀ e ∈ fixed, e.Stands im names first)
    (hextras : ∀ i : Nat, im.sections[first - 1 + i]? = extras[i]?) (hfirst : 0 < first)
    (hreserved : first ≤ firstReserved) (hcount : first + extras.length < UInt16.size)
    (h : HasNumber fixed first extras.length tag number) :
    Tells im names fixed extras first tag number := by
  have hranges := h.ranges hfixed
  simp only [UInt16.size] at hcount
  simp only [firstReserved] at hreserved
  refine ⟨?_, ?_, ?_, h.exists_section hfixed hextras hfirst⟩
  · rw [SectionTag.eq_iff, SectionTag.toNat_null, indexUndefined]
    omega
  · rw [SectionTag.eq_iff, SectionTag.toNat_absolute, indexAbsolute]
    omega
  · rw [SectionTag.eq_iff, SectionTag.toNat_absolute, firstReserved]
    omega

/-- **Fixed sections first, extra sections behind them.** -/
theorem numbered_numberOf (hfixed : ∀ e ∈ fixed, e.Stands im names first)
    (hunique : ∀ d ∈ fixed, ∀ e ∈ fixed, d.tag = e.tag → d = e)
    (hextras : ∀ i : Nat, im.sections[first - 1 + i]? = extras[i]?) (hfirst : 0 < first)
    (hreserved : first ≤ firstReserved) (hcount : first + extras.length < UInt16.size) :
    Numbered im names fixed extras first (numberOf fixed first extras.length) := by
  have h := numberOf_eq_some_iff hfixed hunique hcount
  refine ⟨fun tag => ?_, fun f strings tag s hf hs => ?_,
    fun f strings t u a b hf ha hb ht hu heq => ?_⟩
  · rw [Option.isSome_iff_exists]
    constructor
    · rintro ⟨number, hnumber⟩
      cases (h tag number).mp hnumber with
      | null => exact .inl rfl
      | absolute => exact .inr (.inl rfl)
      | fixed he => exact .inr (.inr (.inl ⟨_, he, rfl⟩))
      | extra htag => exact .inr (.inr (.inr htag))
    · rintro (rfl | rfl | ⟨e, he, rfl⟩ | htag)
      · exact ⟨_, (h _ _).mpr .null⟩
      · exact ⟨_, (h _ _).mpr .absolute⟩
      · exact ⟨_, (h _ _).mpr (.fixed he)⟩
      · exact ⟨_, (h _ _).mpr (.extra htag)⟩
  · have hnumber := (h tag s.index).mp hs
    rw [home_eq hf strings s (hnumber.lt hfixed hcount)]
    exact hnumber.tells hfixed hextras hfirst hreserved hcount
  · have ha := (h t a.index).mp ha
    have hb := (h u b.index).mp hb
    rw [home_eq hf strings a (ha.lt hfixed hcount), home_eq hf strings b (hb.lt hfixed hcount),
      ha.eq_add hfixed hcount ht, hb.eq_add hfixed hcount hu] at heq
    exact SectionTag.eq_iff.mpr (Nat.add_left_cancel heq)

end Elf

namespace Model

/-- The fixed sections of a binary; global data is part of the read-only data. -/
def fixedSections : List Elf.FixedSection := [
  ⟨.sectionNames, 1, .ofString ".shstrtab"⟩, ⟨.strings, 2, .ofString ".strtab"⟩,
  ⟨.symbols, 3, .ofString ".symtab"⟩, ⟨.rodata, 4, .ofString ".rodata"⟩,
  ⟨.data, 4, .ofString ".rodata"⟩, ⟨.text, 5, .ofString ".text"⟩,
  ⟨.comment, 6, .ofString ".comment"⟩]

/-- The numbers of a binary are looked up in the table of its fixed sections. -/
theorem sectionIndex?_eq (n : Nat) :
    sectionIndex? n = Elf.numberOf fixedSections 7 n := by
  funext tag
  by_cases hfixed : tag ∈ fixedSections.map (·.tag)
  · simp only [fixedSections, List.map_cons, List.map_nil, List.mem_cons, List.not_mem_nil,
      or_false] at hfixed
    rcases hfixed with rfl | rfl | rfl | rfl | rfl | rfl | rfl <;> rfl
  · simp only [fixedSections, List.map_cons, List.map_nil, List.mem_cons, List.not_mem_nil,
      or_false, not_or] at hfixed
    simp [sectionIndex?, Elf.numberOf, fixedSections, hfixed]

/-- The fixed sections of a binary are where their numbers say. -/
theorem stands_fixedSections (m : Model) (parts : List KernelPart) (symbols : List Elf.SymbolEntry)
    (extras : List Elf.Section) :
    ∀ e ∈ fixedSections, e.Stands (m.imageWith parts symbols extras) m.sectionStrings 7 := by
  obtain ⟨-, h1, h11, h19, h27, h35, h41⟩ := nameAt_imageSectionNames
  simp only [fixedSections, List.forall_mem_cons]
  refine ⟨⟨by decide, by decide, _, rfl, h1.append _⟩,
    ⟨by decide, by decide, _, rfl, h11.append _⟩,
    ⟨by decide, by decide, _, rfl, h19.append _⟩,
    ⟨by decide, by decide, _, rfl, h27.append _⟩,
    ⟨by decide, by decide, _, rfl, h27.append _⟩,
    ⟨by decide, by decide, _, rfl, h35.append _⟩,
    ⟨by decide, by decide, _, rfl, h41.append _⟩, by simp⟩

end Model

namespace Kernel

/-- The fixed sections of a kernel image. -/
def fixedSections : List Elf.FixedSection := [
  ⟨.sectionNames, 1, .ofString ".shstrtab"⟩, ⟨.text, 2, .ofString ".text"⟩,
  ⟨.data, 3, .ofString ".data"⟩, ⟨.symbols, 4, .ofString ".symtab"⟩,
  ⟨.strings, 5, .ofString ".strtab"⟩]

/-- The numbers of a kernel image are looked up in the table of its fixed sections. -/
theorem sectionIndex?_eq (n : Nat) :
    sectionIndex? n = Elf.numberOf fixedSections 6 n := by
  funext tag
  by_cases hfixed : tag ∈ fixedSections.map (·.tag)
  · simp only [fixedSections, List.map_cons, List.map_nil, List.mem_cons, List.not_mem_nil,
      or_false] at hfixed
    rcases hfixed with rfl | rfl | rfl | rfl | rfl <;> rfl
  · simp only [fixedSections, List.map_cons, List.map_nil, List.mem_cons, List.not_mem_nil,
      or_false, not_or] at hfixed
    simp [sectionIndex?, Elf.numberOf, fixedSections, hfixed]

/-- The fixed sections of a kernel image are where their numbers say. -/
theorem stands_fixedSections (k : Kernel) (device : UInt32) (notes : List CalNote)
    (symbols : List Elf.SymbolEntry) (extras : List Elf.Section) :
    ∀ e ∈ fixedSections,
      e.Stands (k.imageWith device notes symbols extras) k.sectionStrings 6 := by
  obtain ⟨-, h1, h11, h17, h23, h31⟩ := nameAt_imageSectionNames
  simp only [fixedSections, List.forall_mem_cons]
  refine ⟨⟨by decide, by decide, _, rfl, h1.append _⟩,
    ⟨by decide, by decide, _, rfl, h11.append _⟩, ⟨by decide, by decide, _, rfl, h17.append _⟩,
    ⟨by decide, by decide, _, rfl, h23.append _⟩, ⟨by decide, by decide, _, rfl, h31.append _⟩,
    by simp⟩

end Kernel

/-- **The section numbers of symbols.** In a binary and in a kernel image with less than 65536
sections, a reader of a symbol finds number 0 for no section, the number of absolute symbols for
these, and otherwise the number of the header of the section that is meant; different extra sections
have different numbers. But the numbers of extra sections run on into the reserved ones, and one of
them is that of absolute symbols. -/
theorem section_numbers (symbols : List Elf.SymbolEntry) (extras : List Elf.Section) :
    (∀ (m : Model) (parts : List Model.KernelPart), extras.length = m.sectionList.length →
      7 + m.sectionList.length < UInt16.size →
      Elf.Numbered (m.imageWith parts symbols extras) m.sectionStrings Model.fixedSections extras 7
        (Model.sectionIndex? m.sectionList.length)) ∧
    ∀ (k : Kernel) (device : UInt32) (notes : List CalNote),
      extras.length = k.sectionList.length → 6 + k.sectionList.length < UInt16.size →
      Elf.Numbered (k.imageWith device notes symbols extras) k.sectionStrings Kernel.fixedSections
        extras 6 (Kernel.sectionIndex? k.sectionList.length) := by
  constructor
  · intro m parts hlength hcount
    rw [← hlength] at hcount ⊢
    rw [Model.sectionIndex?_eq]
    refine Elf.numbered_numberOf (m.stands_fixedSections parts symbols extras) (by decide)
      (fun i => ?_) (by decide) (by decide) hcount
    rw [Nat.add_comm]
    rfl
  · intro k device notes hlength hcount
    rw [← hlength] at hcount ⊢
    rw [Kernel.sectionIndex?_eq]
    refine Elf.numbered_numberOf (k.stands_fixedSections device notes symbols extras) (by decide)
      (fun i => ?_) (by decide) (by decide) hcount
    rw [Nat.add_comm]
    rfl

/-- The second of two extra sections of a binary and the data of a kernel image. -/
theorem section_numbers_small :
    let m : Model := { extraSections := some [{ name := .ofString "a" }, {}] }
    let extras : List Elf.Section := [⟨{ name := 50 }, .ofBytes []⟩, ⟨{ name := 52 }, .ofBytes []⟩]
    let k : Kernel := {}
    extras.length = m.sectionList.length ∧ 7 + m.sectionList.length < UInt16.size ∧
      Elf.Tells (m.imageWith [] [] extras) m.sectionStrings Model.fixedSections extras 7 ⟨1⟩ 8 ∧
      6 + k.sectionList.length < UInt16.size ∧
      Elf.Tells (k.imageWith 0 [] [] []) k.sectionStrings Kernel.fixedSections [] 6 .data 3 := by
  intro m extras k
  have hm := (section_numbers [] extras).1 m [] rfl (by decide)
  have hk := (section_numbers [] []).2 k 0 [] rfl (by decide)
  exact ⟨rfl, by decide, hm.tells default [] ⟨1⟩ { index := 8 } rfl rfl, by decide,
    hk.tells default [] .data { index := 3 } rfl rfl⟩

/-- The number of an extra section that is also the number of absolute symbols. -/
theorem extra_section_taken_for_absolute :
    7 + 65515 < UInt16.size ∧ (⟨65514⟩ : SectionTag) ≠ .absolute ∧
      Model.sectionIndex? 65515 ⟨65514⟩ = some Elf.indexAbsolute ∧
      6 + 65516 < UInt16.size ∧ (⟨65515⟩ : SectionTag) ≠ .absolute ∧
      Kernel.sectionIndex? 65516 ⟨65515⟩ = some Elf.indexAbsolute := by
  decide

end CatalystAsm
