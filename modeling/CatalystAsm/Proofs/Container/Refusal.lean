import CatalystAsm.Proofs.Container.Size

/-!
# Which models are refused

A model is mapped when every section that its symbols and its extra sections name is part of the
image they belong to. A mapped model whose configured kernels have room for their user data is
refused for one reason only: it has a configured kernel, and its device is one that metadata cannot
name (`Model.Mapped.plan_refused_iff`). Otherwise only a string table that is too long can keep it
from being planned.
-/

namespace CatalystAsm

/-! ## String tables -/

/-- A string table is too long for offsets of 32 bits, and that is the error. -/
def ImageError.IsLongTable (tables : List Bytes) (e : ImageError) : Prop :=
  e = .overflow .stringTable ∧ ∃ t ∈ tables, UInt32.size < t.length

/-- A long table is still one among more tables. -/
theorem ImageError.IsLongTable.mono {tables more : List Bytes} {e : ImageError}
    (h : e.IsLongTable tables) (hsub : tables ⊆ more) : e.IsLongTable more := by
  obtain ⟨he, t, ht, hlong⟩ := h
  exact ⟨he, t, hsub ht, hlong⟩

/-- A string table that is too long is an overflow. -/
theorem ImageError.IsLongTable.isOverflow {tables : List Bytes} {e : ImageError}
    (h : e.IsLongTable tables) : e.isOverflow = true := by
  rw [h.1]
  rfl

namespace Elf

/-- Each name takes its bytes and a zero byte. -/
theorem namesLength_eq_sum (names : List Bytes) :
    namesLength names = (names.map (·.length + 1)).sum := rfl

/-- The bytes of names add up. -/
theorem namesLength_append (names more : List Bytes) :
    namesLength (names ++ more) = namesLength names + namesLength more := by
  rw [namesLength_eq_sum, List.map_append, List.sum_append, ← namesLength_eq_sum,
    ← namesLength_eq_sum]

/-- A string table has its start and the names, each with a zero byte. -/
theorem length_stringTable (start : Bytes) (names : List Bytes) :
    (stringTable start names).length = start.length + namesLength names := by
  rw [stringTable, List.length_append]
  congr 1
  induction names with
  | nil => rfl
  | cons name rest ih =>
    rw [List.flatMap_cons, List.length_append, ih, List.length_append]
    rfl

variable {tables : List Bytes} {t : Bytes}

/-- There is an offset in a string table, or the table is too long. -/
theorem ends_word32_table (ht : t ∈ tables) {start : Nat} (h : start < t.length) :
    Ends (ImageError.IsLongTable tables) (fun _ => True) (word32 .stringTable start) := by
  unfold word32
  split
  · trivial
  · rename_i hlong
    exact ⟨rfl, t, ht, by omega⟩

/-- The names that are put into a string table have offsets, or the table is too long. -/
theorem ends_nameOffsets_table (ht : t ∈ tables) {start : Nat} {names : List Bytes}
    (h : start + namesLength names ≤ t.length) :
    Ends (ImageError.IsLongTable tables) (fun _ => True) (nameOffsets start names) := by
  induction names generalizing start with
  | nil => trivial
  | cons name rest ih =>
    have hlength : namesLength (name :: rest) = name.length + 1 + namesLength rest := rfl
    refine (ends_word32_table ht (by omega)).bind fun _ _ => ?_
    exact (ih (by omega)).bind fun _ _ => trivial

end Elf

/-! ## Sections that are named -/

namespace Elf

variable {indexOf : SectionTag → Option Nat} {E : ImageError → Prop}

/-- A symbol whose section is there gets its number. -/
theorem ends_homeIndex_mapped (use : TagUse) {s : ExtraSymbol}
    (h : (indexOf s.home).isSome = true) :
    Ends E (fun _ => True) (homeIndex indexOf use s) := by
  obtain ⟨index, hindex⟩ := Option.isSome_iff_exists.mp h
  rw [homeIndex, hindex]
  trivial

/-- Extra symbols in sections of the image have entries, or the table of their names is too long. -/
theorem ends_extraSymbols_mapped (use : ExtraSymbol → TagUse) {l : List ExtraSymbol}
    (hhome : ∀ s ∈ l, (indexOf s.home).isSome = true) {tables : List Bytes} {t : Bytes}
    (ht : t ∈ tables) {start : Nat} (h : start + namesLength (l.map (·.name)) ≤ t.length) :
    Ends (ImageError.IsLongTable tables) (fun _ => True) (extraSymbols indexOf use start l) := by
  induction l generalizing start with
  | nil => trivial
  | cons s rest ih =>
    have hlength : namesLength ((s :: rest).map (·.name))
        = s.name.length + 1 + namesLength (rest.map (·.name)) := rfl
    refine (ends_homeIndex_mapped (use s) (hhome s List.mem_cons_self)).bind fun _ _ => ?_
    refine (ends_word32_table ht (by omega)).bind fun _ _ => ?_
    exact (ih (fun r hr => hhome r (List.mem_cons_of_mem _ hr)) (by omega)).bind
      fun _ _ => trivial

/-- An extra section that is linked to one that is there is planned. -/
theorem ends_extraSection_mapped (use : TagUse) {s : ExtraSection}
    (h : (indexOf s.link).isSome = true) (name : UInt32) :
    Ends E (fun _ => True) (extraSection indexOf use s name) := by
  obtain ⟨index, hindex⟩ := Option.isSome_iff_exists.mp h
  have hlink : Ends E (fun _ => True) (linkIndex indexOf use s) := by
    unfold linkIndex
    split
    · trivial
    · rw [hindex]
      trivial
  exact hlink.bind fun _ _ => trivial

end Elf

/-- Every section that the symbols and the extra sections of a kernel name is in its image. -/
structure Kernel.Mapped (k : Kernel) : Prop where
  symbols : ∀ s ∈ k.symbolList, (sectionIndex? k.sectionList.length s.home).isSome = true
  links : ∀ s ∈ k.sectionList, (sectionIndex? k.sectionList.length s.link).isSome = true

/-- Every section that the symbols and the extra sections of a model name is in its binary, and so
for its kernels. -/
structure Model.Mapped (m : Model) : Prop where
  symbols : ∀ s ∈ m.symbolList, (sectionIndex? m.sectionList.length s.home).isSome = true
  links : ∀ s ∈ m.sectionList, (sectionIndex? m.sectionList.length s.link).isSome = true
  kernels : ∀ k ∈ m.kernelList, k.Mapped

/-- The string tables of a kernel image. -/
def Kernel.stringTables (k : Kernel) : List Bytes :=
  [Elf.stringTable imageSectionNames (k.sectionList.map (·.name)),
    Elf.stringTable [0, 0] (k.symbolList.map (·.name))]

/-- The string tables of a binary and of the kernel images in it. -/
def Model.stringTables (m : Model) : List Bytes :=
  [Elf.stringTable imageSectionNames (m.sectionList.map (·.name)),
    Elf.stringTable [0] m.symbolNames] ++ m.kernelList.flatMap (·.stringTables)

/-! ## Plans -/

/-- The image of a mapped kernel is planned, or one of its string tables is too long. -/
theorem Kernel.Mapped.ends_image {k : Kernel} (h : k.Mapped) (device : UInt32)
    (notes : List CalNote) :
    Ends (ImageError.IsLongTable k.stringTables) (fun _ => True) (k.image device notes) := by
  have hsections : Elf.stringTable imageSectionNames (k.sectionList.map (·.name))
      ∈ k.stringTables := List.mem_cons_self
  have hsymbols : Elf.stringTable [0, 0] (k.symbolList.map (·.name)) ∈ k.stringTables :=
    List.mem_cons_of_mem _ List.mem_cons_self
  refine (Elf.ends_nameOffsets_table hsections (Nat.le_of_eq ?_)).bind fun _ _ => ?_
  · exact (Elf.length_stringTable _ _).symm
  refine (Elf.ends_extraSymbols_mapped _ h.symbols hsymbols (Nat.le_of_eq ?_)).bind fun _ _ => ?_
  · exact (Elf.length_stringTable [0, 0] _).symm
  refine (Ends.mapM (Q := fun _ => True) fun e he => ?_).bind fun extras _ => trivial
  exact Elf.ends_extraSection_mapped _ (h.links e.1 (List.of_mem_zip he).1) e.2

namespace Model

variable {m : Model}

/-- A configured kernel is made for a device that metadata cannot name. -/
def NeedsOldDevice (m : Model) : Prop :=
  (∃ k ∈ m.kernelList, k.useConfig = true) ∧ Device.mullins.id < m.device.id

instance (m : Model) : Decidable m.NeedsOldDevice :=
  inferInstanceAs (Decidable ((∃ k ∈ m.kernelList, k.useConfig = true) ∧ _))

/-- Every configured kernel has room for its user data. -/
def FitsUserData (m : Model) : Prop :=
  ∀ k ∈ m.kernelList, k.useConfig = true → k.config.userDataList.length ≤ maxUserData

/-- Where user data has room, validation looks only at the device. -/
theorem validate_eq (h : m.FitsUserData) : m.validate
    = if m.NeedsOldDevice then .error (.unsupportedDevice m.device) else .ok () := by
  have hnone : (m.kernelList.find? fun k =>
      k.useConfig && maxUserData < k.config.userDataList.length) = none := by
    rw [List.find?_eq_none]
    intro k hk hlong
    obtain ⟨huse, hlt⟩ := Bool.and_eq_true_iff.mp hlong
    exact absurd (of_decide_eq_true hlt) (Nat.not_lt.mpr (h k hk huse))
  unfold validate
  rw [hnone]
  dsimp only
  refine if_congr ?_ rfl rfl
  rw [Bool.and_eq_true_iff, List.any_eq_true, decide_eq_true_iff]
  rfl

/-- Where user data has room, a model is invalid only because of its device. -/
theorem validate_eq_error_iff (h : m.FitsUserData) {e : ImageError} :
    m.validate = .error e ↔ m.NeedsOldDevice ∧ e = .unsupportedDevice m.device := by
  rw [validate_eq h]
  split
  · rename_i hdevice
    constructor
    · intro he
      cases he
      exact ⟨hdevice, rfl⟩
    · rintro ⟨-, rfl⟩
      rfl
  · rename_i hdevice
    constructor
    · intro he
      cases he
    · rintro ⟨hold, -⟩
      exact absurd hold hdevice

/-- The kernels of a mapped model are placed, or a string table is too long. -/
theorem Mapped.ends_placeKernels (h : m.Mapped) {l : List (Kernel × Nat)}
    (hl : ∀ e ∈ l, e.1 ∈ m.kernelList) {t : Bytes} (ht : t ∈ m.stringTables) {start : Nat}
    (hlen : start + Elf.namesLength (l.flatMap fun e => kernelNames e.1) ≤ t.length) :
    Ends (ImageError.IsLongTable m.stringTables) (fun _ => True) (m.placeKernels start l) := by
  induction l generalizing start with
  | nil => trivial
  | cons e rest ih =>
    rw [List.flatMap_cons, Elf.namesLength_append] at hlen
    have hk := hl e List.mem_cons_self
    have hpart : Ends (ImageError.IsLongTable m.stringTables) (fun _ => True)
        (m.kernelPart e.2 e.1) := by
      refine (((h.kernels e.1 hk).ends_image _ _).mono (fun _ he => ?_) fun _ h => h).bind
        fun _ _ => trivial
      exact he.mono fun t ht => List.mem_append_right _ (List.mem_flatMap.mpr ⟨e.1, hk, ht⟩)
    have hplaced : Ends (ImageError.IsLongTable m.stringTables) (fun _ => True)
        (m.placeKernel start e.2 e.1) := by
      refine hpart.bind fun _ _ => ?_
      exact (Elf.ends_nameOffsets_table ht (by omega)).bind fun _ _ => trivial
    refine hplaced.bind fun _ _ => ?_
    exact (ih (fun r hr => hl r (List.mem_cons_of_mem _ hr)) (by omega)).bind fun _ _ => trivial

/-- The image of a mapped model is made, or a string table is too long. -/
theorem Mapped.ends_image (h : m.Mapped) :
    Ends (ImageError.IsLongTable m.stringTables) (fun _ => True) m.image := by
  have hsections : Elf.stringTable imageSectionNames (m.sectionList.map (·.name))
      ∈ m.stringTables := List.mem_cons_self
  have hsymbols : Elf.stringTable [0] m.symbolNames ∈ m.stringTables :=
    List.mem_cons_of_mem _ List.mem_cons_self
  -- the names of the symbols fill the strings one after another
  have hkernels : m.kernelList.zipIdx.flatMap (fun e => kernelNames e.1)
      = m.kernelList.flatMap kernelNames := by
    rw [← List.flatMap_map, List.zipIdx_map_fst]
  have hlocals : Elf.namesLength (localNames m.kernelList)
      = Elf.namesLength [optionsName] + Elf.namesLength (m.kernelList.flatMap kernelNames) :=
    Elf.namesLength_append [optionsName] _
  have hlength : (Elf.stringTable [0] m.symbolNames).length = 1 +
      (Elf.namesLength (localNames m.kernelList) +
        Elf.namesLength (m.symbolList.map (·.name))) := by
    rw [Elf.length_stringTable, symbolNames, Elf.namesLength_append]
    rfl
  have hfirst : Ends (ImageError.IsLongTable m.stringTables) (fun _ => True) m.firstOffsets := by
    refine (Elf.ends_nameOffsets_table hsections (Nat.le_of_eq ?_)).bind fun _ _ => ?_
    · exact (Elf.length_stringTable _ _).symm
    · exact (Elf.ends_nameOffsets_table hsymbols (by omega)).bind fun _ _ => trivial
  refine hfirst.bind fun _ _ => ?_
  refine (h.ends_placeKernels (fun e he => ?_) hsymbols ?_).bind fun _ _ => ?_
  · exact (List.mem_zipIdx' he).2 ▸ List.getElem_mem _
  · rw [hkernels, kernelStart]
    omega
  refine (Elf.ends_extraSymbols_mapped _ h.symbols hsymbols (by omega)).bind fun _ _ => ?_
  refine (Ends.mapM (Q := fun _ => True) fun e he => ?_).bind fun extras _ => trivial
  exact Elf.ends_extraSection_mapped _ (h.links e.1 (List.of_mem_zip he).1) e.2

/-- A mapped model is refused for its device, has a string table that is too long, or is planned. -/
theorem Mapped.ends_plan (h : m.Mapped) (hdata : m.FitsUserData) :
    Ends (fun e => m.NeedsOldDevice ∧ e = .unsupportedDevice m.device ∨
      ¬m.NeedsOldDevice ∧ e.IsLongTable m.stringTables) (fun _ => ¬m.NeedsOldDevice) m.plan := by
  unfold plan
  rw [validate_eq hdata]
  by_cases hdevice : m.NeedsOldDevice
  · rw [if_pos hdevice]
    exact .inl ⟨hdevice, rfl⟩
  · rw [if_neg hdevice]
    have hlong (e : ImageError) (he : e.IsLongTable m.stringTables) :
        m.NeedsOldDevice ∧ e = .unsupportedDevice m.device ∨
          ¬m.NeedsOldDevice ∧ e.IsLongTable m.stringTables := .inr ⟨hdevice, he⟩
    exact (h.ends_image.mono hlong fun _ h => h).bind fun _ _ => hdevice

/-- **A mapped model is refused for its device alone.** -/
theorem Mapped.plan_refused_iff (h : m.Mapped) (hdata : m.FitsUserData) :
    (∃ e, m.plan = .error e ∧ e.isOverflow = false) ↔ m.NeedsOldDevice := by
  have hends := h.ends_plan hdata
  constructor
  · rintro ⟨e, he, hoverflow⟩
    rcases hends.of_eq_error he with ⟨hdevice, -⟩ | ⟨-, hlong⟩
    · exact hdevice
    · rw [hlong.isOverflow] at hoverflow
      cases hoverflow
  · intro hdevice
    cases hplan : m.plan with
    | ok p => exact absurd hdevice (hends.of_eq_ok hplan)
    | error e =>
      refine ⟨e, rfl, ?_⟩
      rcases hends.of_eq_error hplan with ⟨-, rfl⟩ | ⟨hnot, -⟩
      · rfl
      · exact absurd hdevice hnot

/-- Unless a number does not fit its field, a binary is refused when it cannot be planned. -/
theorem generate_eq_error_iff {e : ImageError} (he : e.isOverflow = false) :
    m.generate = .error e ↔ m.plan = .error e := by
  constructor
  · intro h
    rcases m.ends_generate.of_eq_error h with hplan | hoverflow
    · exact hplan
    · rw [he] at hoverflow
      cases hoverflow
  · intro h
    rw [generate, h]
    rfl

end Model

end CatalystAsm
