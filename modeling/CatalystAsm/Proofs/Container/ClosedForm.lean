import CatalystAsm.Proofs.Container.Argument
import CatalystAsm.Proofs.Container.Binary
import CatalystAsm.Proofs.Container.Refusal
import CatalystAsm.Proofs.Decimal
import Mathlib.Algebra.BigOperators.Group.List.Basic
import Mathlib.Data.Nat.Log
import Mathlib.Tactic.Ring

/-!
# The size of a binary as a formula

The size of a binary without extra sections and extra symbols can be told from the lengths of the
names, texts and lists that it is made of. The formula (`Model.formula`) adds up the tables of the
binary, and for each kernel the tables of its image, its code and data, its notes and its metadata.
It knows nothing of pieces and offsets: what a number takes in a text is the number of its decimal
digits. The size of every such binary is what the formula says (`Model.size_eq_formula`).
-/

namespace CatalystAsm

/-! ## The formula -/

/-- The number of decimal digits of a number. -/
def decimalWidth (n : Nat) : Nat := Nat.log 10 n + 1

/-- The size of the metadata lines of arguments. Each has a line with its type and its name. One
that may not be written to has a line with its number, and a sampler has a line with its number
among the samplers. -/
def KernelArg.linesFormula (args : List KernelArg) : Nat :=
  (args.map fun a => a.name.length + a.typeName.length + 15).sum +
  (args.zipIdx.map fun e =>
    if e.1.access.isConst then 12 + e.1.name.length + decimalWidth e.2 else 0).sum +
  ((args.filter (·.isSampler)).zipIdx.map fun e => 15 + e.1.name.length + decimalWidth e.2).sum

/-- The size of the metadata of a configured kernel. -/
def Kernel.metadataFormula (k : Kernel) (device : Device) (is64 : Bool) (uniqueId : UInt32) : Nat :=
  let c := k.config
  let width (v : UInt32) : Nat := decimalWidth v.toNat
  2 * k.name.length + 27 + 25 + 17 + 9 + (Bytes.ofString device.name).length +
    11 + width uniqueId + 20 + width c.uavPrivate + 17 + width c.hwLocal + 18 + width c.hwRegion +
    11 + width uniqueId + 8 + width c.uavId + 12 + width c.privateId +
    (if is64 then 17 else 0) + (if c.useConstData then 17 else 0) +
    (if c.usePrintf then 11 + width c.printfId else 0) +
    (if c.constBufferId = notSupplied then 0 else 11 + width c.constBufferId) +
    KernelArg.linesFormula c.argList

/-- The size of the notes of a configured kernel, for a driver version. -/
def KernelConfig.notesFormula (c : KernelConfig) (version : UInt32) : Nat :=
  let userData := if version < 112402 then 16 else c.userDataList.length
  20 * 17 + 16 + 128 + 8 * (50 + 2 * userData) + 4 * c.readOnlyImages + 16 * c.views +
    8 * c.samplerCount + 8 * c.constantBuffers

/-- What kernel number `i` adds to the size of a binary. -/
def Model.kernelFormula (m : Model) (i : Nat) (k : Kernel) : Nat :=
  53 + 3 * k.name.length + 494 + k.codeBytes.length +
    (match k.data with
      | some data => data.length
      | none => 4736) +
    if k.useConfig then
      k.config.notesFormula m.driver.2 + k.metadataFormula m.device m.is64 (1025 + UInt32.ofNat i)
    else
      ((k.notes.getD []).map fun n => 20 + (n.data.getD []).length).sum +
        (k.metadata.getD []).length

/-- The size of a binary without extra sections and extra symbols. -/
def Model.formula (m : Model) : Nat :=
  let n := m.kernelList.length
  (if m.is64 then 64 + 7 * 64 + 24 * (3 * n + 2) else 52 + 7 * 40 + 16 * (3 * n + 2)) + 50 + 26 +
    m.driver.1.length + m.compileOptions.length + (m.globalData.getD []).length +
    (m.kernelList.zipIdx.map fun e => m.kernelFormula e.2 e.1).sum

/-! ## Decimal numbers -/

/-- A number has as many decimal digits as its logarithm says. -/
theorem length_toDigits (n : Nat) : (Nat.toDigits 10 n).length = decimalWidth n := by
  have hpos : 0 < (Nat.toDigits 10 n).length := Nat.length_toDigits_pos
  refine Nat.le_antisymm ?_ ?_
  · exact (Nat.length_toDigits_le_iff (by decide) (Nat.succ_pos _)).mpr
      (Nat.lt_pow_succ_log_self (by decide) n)
  · exact Nat.log_lt_of_lt_pow' hpos.ne'
      ((Nat.length_toDigits_le_iff (by decide) hpos).mp (Nat.le_refl _))

@[simp] theorem Bytes.length_ofNat (n : Nat) : (Bytes.ofNat n).length = decimalWidth n := by
  rw [Bytes.ofNat_eq_map, List.length_map, length_toDigits]

/-! ## Metadata -/

/-- The size of a text of lines. -/
def linesSize (lines : List Bytes) : Nat := (lines.map fun line => line.length + 1).sum

@[simp] theorem linesSize_nil : linesSize [] = 0 := rfl

@[simp] theorem linesSize_cons (line : Bytes) (lines : List Bytes) :
    linesSize (line :: lines) = line.length + 1 + linesSize lines := rfl

/-- Lines that follow one another add up. -/
@[simp] theorem linesSize_append (a b : List Bytes) :
    linesSize (a ++ b) = linesSize a + linesSize b := by
  rw [linesSize, List.map_append, List.sum_append]
  rfl

/-- A text has the size of its lines, each with its newline. -/
theorem length_flatMap_lines (lines : List Bytes) :
    (lines.flatMap (· ++ [0x0a])).length = linesSize lines := by
  induction lines with
  | nil => rfl
  | cons line rest ih =>
    rw [List.flatMap_cons, List.length_append, List.length_append, ih, linesSize_cons]
    rfl

/-- The lengths of what stands before names and numbers in the lines of arguments. -/
theorem length_argumentLabels :
    (Bytes.ofString ";reflection:").length = 12 ∧ (Bytes.ofString " ").length = 1 ∧
      (Bytes.ofString ";").length = 1 ∧ (Bytes.ofString ";constarg:").length = 10 ∧
      (Bytes.ofString ":").length = 1 ∧ (Bytes.ofString ";sampler:").length = 9 ∧
      (Bytes.ofString ":1:0").length = 4 := by decide +kernel

/-- The metadata of arguments, when the first one has number `i` and the first sampler `sampler`. -/
theorem KernelArg.linesSize_listLines (args : List KernelArg) (i sampler : Nat) :
    linesSize (listLines i sampler args) =
      (args.map fun a => a.name.length + a.typeName.length + 15).sum +
      ((args.zipIdx i).map fun e =>
        if e.1.access.isConst then 12 + e.1.name.length + decimalWidth e.2 else 0).sum +
      (((args.filter (·.isSampler)).zipIdx sampler).map fun e =>
        15 + e.1.name.length + decimalWidth e.2).sum := by
  induction args generalizing i sampler with
  | nil => rfl
  | cons a rest ih =>
    rw [listLines, linesSize_append, ih, metadataLines]
    cases hconst : a.access.isConst <;> cases hsampler : a.isSampler
    all_goals
      simp [hconst, hsampler, length_argumentLabels]
      omega

/-- The lengths of what stands before names and numbers in the other lines. -/
theorem length_metadataLabels :
    (Bytes.ofString "__OpenCL_").length = 9 ∧ (Bytes.ofString "_kernel").length = 7 ∧
      (Bytes.ofString ";ARGSTART:").length = 10 ∧ (Bytes.ofString ";ARGEND:").length = 8 ∧
      (Bytes.ofString ";version:3:1:111").length = 16 ∧
      (Bytes.ofString ";device:").length = 8 ∧ (Bytes.ofString ";uniqueid:").length = 10 ∧
      (Bytes.ofString ";memory:uavprivate:").length = 19 ∧
      (Bytes.ofString ";memory:hwlocal:").length = 16 ∧
      (Bytes.ofString ";memory:hwregion:").length = 17 ∧
      (Bytes.ofString ";memory:64bitABI").length = 16 ∧
      (Bytes.ofString ";memory:datareqd").length = 16 ∧
      (Bytes.ofString ";function:").length = 10 ∧ (Bytes.ofString ";uavid:").length = 7 ∧
      (Bytes.ofString ";privateid:").length = 11 ∧ (Bytes.ofString ";printfid:").length = 10 ∧
      (Bytes.ofString ";cbuffers:").length = 10 := by decide +kernel

/-- The metadata of a configured kernel has the size of the formula. -/
theorem Kernel.length_configMetadata (k : Kernel) (device : Device) (is64 : Bool)
    (uniqueId : UInt32) :
    (k.configMetadata device is64 uniqueId).length = k.metadataFormula device is64 uniqueId := by
  have hite (p : Prop) [Decidable p] (a b : List Bytes) :
      linesSize (if p then a else b) = if p then linesSize a else linesSize b :=
    apply_ite linesSize p a b
  rw [configMetadata, length_flatMap_lines, metadataLines, metadataFormula, KernelArg.linesFormula]
  simp only [linesSize_append, linesSize_cons, linesSize_nil, hite, List.length_append,
    Bytes.length_ofNat, length_metadataLabels, KernelArg.linesSize_listLines]
  split_ifs
  all_goals omega

/-! ## Notes -/

/-- Pieces of one size add up to a multiple of it. -/
theorem length_flatMap_const {α β : Type} {f : α → List β} {n : Nat} (h : ∀ a, (f a).length = n)
    (l : List α) : (l.flatMap f).length = n * l.length := by
  induction l with
  | nil => rfl
  | cons a rest ih =>
    rw [List.flatMap_cons, List.length_append, h, ih, List.length_cons, Nat.mul_add, Nat.mul_one,
      Nat.add_comm]

namespace KernelConfig

/-- The program information has fifty entries, and two for each slot of user data it describes. -/
theorem length_progInfo (c : KernelConfig) (age : DriverAge) :
    (c.progInfo age).length = 50 + 2 * c.describedUserData age := by
  have hslots := length_flatMap_const (f := c.userDataEntries) (n := 2) (fun _ => rfl)
    (List.range (c.describedUserData age))
  simp only [progInfo, Vector.length_toList, List.length_append, List.length_cons, List.length_nil,
    hslots, List.length_map, List.length_zipIdx, List.length_range]
  omega

/-- The notes of a configured kernel have the size of the formula. -/
theorem sum_recordSize_calNotes (c : KernelConfig) (version : UInt32) :
    ((c.calNotes (.ofVersion version)).map (·.recordSize)).sum = c.notesFormula version := by
  have hwords (words : List UInt32) : (words.flatMap Bytes.ofUInt32).length = 4 * words.length :=
    length_flatMap_const Bytes.length_ofUInt32 words
  have hpairs (l : List (UInt32 × UInt32)) :
      (l.flatMap fun p => [p.1, p.2]).length = 2 * l.length :=
    length_flatMap_const (n := 2) (fun _ => rfl) _
  have hbuffers (l : List UInt32) : (l.flatMap fun i => [i, 0]).length = 2 * l.length :=
    length_flatMap_const (n := 2) (fun _ => rfl) _
  have hsamplers (l : List Nat) :
      (l.flatMap fun i => [UInt32.ofNat i, (c.samplers.getD []).getD i 0]).length = 2 * l.length :=
    length_flatMap_const (n := 2) (fun _ => rfl) _
  have hviews (l : List UInt32) : (l.flatMap fun i => [i, 4, 2, 5]).length = 4 * l.length :=
    length_flatMap_const (n := 4) (fun _ => rfl) _
  have hslots : c.describedUserData (.ofVersion version)
      = if version < 112402 then 16 else c.userDataList.length := by
    simp only [describedUserData, DriverAge.ofVersion, decide_eq_true_eq, maxUserData]
  simp only [calNotes, resources_eq, List.map_cons, List.map_nil, List.sum_cons, List.sum_nil,
    CalNote.recordSize, Option.getD_some, hwords]
  simp only [hpairs, hbuffers, hsamplers, hviews, length_progInfo, hslots, Vector.length_toList,
    List.length_map, List.length_range, List.length_cons, List.length_nil]
  rw [notesFormula]
  ring

end KernelConfig

/-! ## Images -/

/-- The size of an image: the header, the pieces after it, the sections and their headers. -/
theorem Elf.Image.size_plan (im : Elf.Image) :
    im.plan.size = Elf.headerLength im.wide + (im.front.map (·.size)).sum +
      (im.sections.map (·.body.size)).sum +
      (im.sections.length + 1) * Elf.sectionHeaderLength im.wide := by
  rw [Plan.size_eq_sum, Plan.sizes, pieces_plan]
  simp only [List.map_cons, List.map_append, List.map_nil, List.map_map, List.sum_cons,
    List.sum_append, List.sum_nil, Function.comp_def]
  omega

theorem length_stringTable_nil (start : Bytes) :
    (Elf.stringTable start []).length = start.length := by
  simp [Elf.stringTable]

/-- Data that is not given takes the place of the default data. -/
theorem Kernel.length_dataBytes (k : Kernel) : k.dataBytes.length =
    match k.data with
    | some data => data.length
    | none => 4736 := by
  cases hdata : k.data with
  | none => rw [dataBytes, hdata, Option.getD_none, List.length_replicate]; rfl
  | some data => rw [dataBytes, hdata, Option.getD_some]

/-- The size of a kernel image without extra parts. -/
theorem Kernel.size_image {k : Kernel} {device : UInt32} {notes : List CalNote} {im : Elf.Image}
    (h : k.image device notes = .ok im) (hsections : k.sectionList = [])
    (hsymbols : k.symbolList = []) :
    im.plan.size = 462 + k.codeBytes.length + k.dataBytes.length +
      (notes.map (·.recordSize)).sum := by
  obtain ⟨symbols, extras, rfl, hmade, hextras⟩ := image_eq_ok h
  rw [hsymbols] at hmade
  rw [hsections] at hextras
  cases hmade
  cases hextras
  have hnames : imageSectionNames.length = 40 := by decide +kernel
  rw [Elf.Image.size_plan]
  simp only [imageWith, hsections, hsymbols, List.map_nil, List.append_nil, List.map_append,
    List.map_cons, List.map_map, List.sum_append, List.sum_cons, List.sum_nil, Piece.ofBytes,
    dataPiece, Elf.symbolTable, length_stringTable_nil, hnames, List.length_cons, List.length_nil,
    Elf.headerLength, Elf.sectionHeaderLength, Elf.symbolLength, Function.comp_def]
  simp only [Bool.false_eq_true, if_false]
  omega

/-! ## Binaries -/

namespace Model

variable {m : Model}

/-- What a binary without extra parts has none of. -/
structure Plain (m : Model) : Prop where
  sections : m.sectionList = []
  symbols : m.symbolList = []
  kernels : ∀ k ∈ m.kernelList, k.sectionList = [] ∧ k.symbolList = []

/-- What a kernel adds to the strings of a binary. -/
def nameBytes (name : Bytes) : Nat := 53 + 3 * name.length

/-- The strings of a binary without extra symbols: the names of the compile options and of the
kernels. -/
theorem length_strings (h : m.Plain) :
    (Elf.stringTable [0] m.symbolNames).length
      = 26 + (m.kernelList.map fun k => nameBytes k.name).sum := by
  have hoptions : optionsName.length = 24 := by decide +kernel
  have hlabels : (Bytes.ofString "__OpenCL_").length = 9 ∧
      (Bytes.ofString "_metadata").length = 9 ∧ (Bytes.ofString "_kernel").length = 7 ∧
      (Bytes.ofString "_header").length = 7 := by decide +kernel
  have hkernels (kernels : List Kernel) : Elf.namesLength (kernels.flatMap kernelNames)
      = (kernels.map fun k => nameBytes k.name).sum := by
    induction kernels with
    | nil => rfl
    | cons k rest ih =>
      rw [List.flatMap_cons, Elf.namesLength_append, ih, List.map_cons, List.sum_cons]
      simp only [kernelNames, Elf.namesLength_eq_sum, List.map_cons, List.map_nil, List.sum_cons,
        List.sum_nil, List.length_append, symbolName, hlabels, nameBytes]
      omega
  have hlocals : Elf.namesLength (localNames m.kernelList)
      = optionsName.length + 1 + Elf.namesLength (m.kernelList.flatMap kernelNames) := rfl
  rw [Elf.length_stringTable, symbolNames, h.symbols, List.map_nil, List.append_nil, hlocals,
    hkernels, hoptions, List.length_singleton]
  omega

/-- What the parts of a kernel take, with its names. -/
theorem size_kernelPart {i : Nat} {k : Kernel} {part : KernelPart}
    (hpart : m.kernelPart i k = .ok part) (hsections : k.sectionList = [])
    (hsymbols : k.symbolList = []) :
    m.kernelFormula i k = (part.metadata ++ part.header).length + part.plan.size +
      nameBytes part.name := by
  obtain ⟨im, him, hpart⟩ := bind_eq_ok_iff.mp hpart
  cases hpart
  rw [Kernel.size_image him hsections hsymbols, kernelFormula, Kernel.metadataBytes, notesOf,
    Kernel.length_dataBytes, List.length_append, Kernel.length_headerBytes, headerSize, nameBytes]
  cases huse : k.useConfig with
  | true =>
    simp only [if_true, KernelConfig.sum_recordSize_calNotes, Kernel.length_configMetadata,
      firstUniqueId]
    omega
  | false =>
    simp only [Bool.false_eq_true, if_false, CalNote.recordSize]
    omega

/-- What the kernels add to the size of a binary: their read-only data, their images and their
names. -/
theorem sum_kernelFormula (h : m.Plain) {parts : List KernelPart}
    (hparts : m.kernelParts = .ok parts) :
    (m.kernelList.zipIdx.map fun e => m.kernelFormula e.2 e.1).sum =
      (parts.flatMap fun p => p.metadata ++ p.header).length + (parts.map (·.plan.size)).sum +
        (m.kernelList.map fun k => nameBytes k.name).sum := by
  have hall := mapM_eq_ok_iff.mp hparts
  have hformula : m.kernelList.zipIdx.map (fun e => m.kernelFormula e.2 e.1)
      = parts.map fun p => (p.metadata ++ p.header).length + p.plan.size + nameBytes p.name := by
    have hplain : ∀ e ∈ m.kernelList.zipIdx, e.1.sectionList = [] ∧ e.1.symbolList = [] :=
      fun e he => h.kernels e.1 ((List.mem_zipIdx' he).2 ▸ List.getElem_mem _)
    refine map_eq_map_of_forall₂ (((List.forall₂_and_left _ _).mpr ⟨hplain, hall⟩).imp ?_)
    intro e part hpart
    exact size_kernelPart hpart.2 hpart.1.1 hpart.1.2
  have hnames : m.kernelList.map (fun k => nameBytes k.name)
      = parts.map fun p => nameBytes p.name := by
    rw [← List.zipIdx_map_fst 0 m.kernelList, List.map_map]
    refine map_eq_map_of_forall₂ (hall.imp fun e part hpart => ?_)
    obtain ⟨im, -, hpart⟩ := bind_eq_ok_iff.mp hpart
    cases hpart
    rfl
  rw [hformula, hnames, List.sum_map_add, List.sum_map_add, List.length_flatMap]

/-- The size of the image of a binary without extra parts. -/
theorem size_image (h : m.Plain) {parts : List KernelPart} {im : Elf.Image}
    (him : m.image = .ok (parts, im)) : im.plan.size = m.formula := by
  have hparts := (image_eq_ok him).1
  obtain ⟨symbols, extras, rfl, hnames, -, hextras⟩ := image_locals him
  have hcount : symbols.length = 3 * m.kernelList.length + 1 := by
    rw [hnames.length_eq, length_symbolNames, h.symbols, List.length_nil, Nat.add_zero]
  have hfixed : imageSectionNames.length = 50 := by decide +kernel
  rw [h.sections] at hextras
  cases hextras
  rw [Elf.Image.size_plan, formula, sum_kernelFormula h hparts]
  simp only [imageWith, h.sections, List.map_nil, List.append_nil, List.map_cons, List.sum_cons,
    List.sum_nil, Piece.ofBytes, size_imagesPiece, Elf.symbolTable, length_stringTable_nil, hfixed,
    length_strings h, rodata, rodataStart, List.length_append, List.length_cons, List.length_nil,
    hcount]
  cases m.is64 with
  | true =>
    simp only [Elf.headerLength, Elf.sectionHeaderLength, Elf.symbolLength, if_true]
    omega
  | false =>
    simp only [Elf.headerLength, Elf.sectionHeaderLength, Elf.symbolLength, Bool.false_eq_true,
      if_false]
    omega

/-! ## Sizes -/

/-- A binary without extra parts names no section that it does not have. -/
theorem Plain.mapped (h : m.Plain) : m.Mapped where
  symbols s hs := by
    rw [h.symbols] at hs
    cases hs
  links s hs := by
    rw [h.sections] at hs
    cases hs
  kernels k hk := by
    obtain ⟨hsections, hsymbols⟩ := h.kernels k hk
    constructor
    · intro s hs
      rw [hsymbols] at hs
      cases hs
    · intro s hs
      rw [hsections] at hs
      cases hs

/-- In a binary without extra parts, only the names of kernels can make a string table too long. -/
theorem Plain.of_isLongTable (h : m.Plain) {e : ImageError} (he : e.IsLongTable m.stringTables) :
    e = .overflow .stringTable ∧
      UInt32.size < 26 + (m.kernelList.map fun k => nameBytes k.name).sum := by
  obtain ⟨rfl, table, htable, hlong⟩ := he
  refine ⟨rfl, ?_⟩
  have hshort : imageSectionNames.length ≤ UInt32.size ∧
      Kernel.imageSectionNames.length ≤ UInt32.size := by decide +kernel
  simp only [stringTables, List.mem_append, List.mem_cons, List.not_mem_nil, or_false,
    List.mem_flatMap, Kernel.stringTables] at htable
  rcases htable with (rfl | rfl) | ⟨k, hk, rfl | rfl⟩
  · rw [h.sections, List.map_nil, length_stringTable_nil] at hlong
    exact absurd hlong (Nat.not_lt.mpr hshort.1)
  · rw [← length_strings h]
    exact hlong
  · rw [(h.kernels k hk).1, List.map_nil, length_stringTable_nil] at hlong
    exact absurd hlong (Nat.not_lt.mpr hshort.2)
  · rw [(h.kernels k hk).2, List.map_nil, length_stringTable_nil] at hlong
    exact absurd hlong (by decide)

/-- A model that passes validation has room for its user data. -/
theorem fitsUserData_of_validate (h : m.validate = .ok ()) : m.FitsUserData := by
  unfold validate at h
  split at h
  · cases h
  · rename_i hnone
    intro k hk huse
    have hk := List.find?_eq_none.mp hnone k hk
    rw [huse, Bool.true_and, decide_eq_true_eq] at hk
    exact Nat.not_lt.mp hk

/-- **The size of a binary is what the formula says**, for every model that is not refused and has
no extra sections and no extra symbols. The exception are names so long that 32 bits cannot tell
where they start among the strings of the binary; then there is no size. -/
theorem size_eq_formula (hvalid : m.validate = .ok ()) (hsections : m.sectionList = [])
    (hsymbols : m.symbolList = [])
    (hkernels : ∀ k ∈ m.kernelList, k.sectionList = [] ∧ k.symbolList = []) :
    m.size = .ok m.formula ∨
      m.size = .error (.overflow .stringTable) ∧
        UInt32.size < 26 + (m.kernelList.map fun k => 53 + 3 * k.name.length).sum := by
  have h : m.Plain := ⟨hsections, hsymbols, hkernels⟩
  have hdata := fitsUserData_of_validate hvalid
  have hends := h.mapped.ends_plan hdata
  rw [size]
  cases hplan : m.plan with
  | ok p =>
    obtain ⟨parts, im, -, him, rfl⟩ := plan_eq_ok hplan
    exact Or.inl (congrArg Except.ok (size_image h him))
  | error e =>
    rcases hends.of_eq_error hplan with ⟨hdevice, -⟩ | ⟨-, hlong⟩
    · rw [validate_eq hdata, if_pos hdevice] at hvalid
      cases hvalid
    · obtain ⟨rfl, hnames⟩ := h.of_isLongTable hlong
      exact Or.inr ⟨rfl, hnames⟩

/-- A configured kernel with more than ten samplers and a constant argument, and a kernel with notes
and without data. -/
def manySamplers : Model where
  is64 := true
  driverVersion := 112401
  compileOptions := .ofString "-O2"
  kernels := some [
    { name := .ofString "blend", data := some [1, 2], code := some [0x7f], useConfig := true
      config := {
        args := some (List.replicate 11
          { name := .ofString "s", typeName := .ofString "sampler_t", type := .sampler } ++
          [{ name := .ofString "src", typeName := .ofString "float*", type := .pointer
             space := .constant, access := .const }])
        hwLocal := 4096
        usePrintf := true } },
    { name := .ofString "copy", metadata := some [0x0a]
      notes := some [{ type := .progInfo, data := some [5] }, { type := .inputs }] }]

/-- The formula is met with numbers of one digit and of two digits. -/
theorem manySamplers_size :
    manySamplers.validate = .ok () ∧ manySamplers.sectionList = [] ∧
      manySamplers.symbolList = [] ∧ manySamplers.size = .ok 8767 := by
  have hvalid : manySamplers.validate = .ok () := rfl
  have hkernels : ∀ k ∈ manySamplers.kernelList, k.sectionList = [] ∧ k.symbolList = [] := by
    decide +kernel
  have hformula : manySamplers.formula = 8767 := by decide +kernel
  refine ⟨hvalid, rfl, rfl, ?_⟩
  rcases size_eq_formula hvalid rfl rfl hkernels with hsize | ⟨-, hlong⟩
  · rw [hsize, hformula]
  · exact absurd hlong (by decide +kernel)

end Model

end CatalystAsm
