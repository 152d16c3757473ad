import CatalystAsm.Proofs.Container.ClosedForm
import CatalystAsm.Proofs.Container.Sampler
import Mathlib.Data.List.Basic

/-!
# The numbers of a kernel's resources

A configured kernel counts its resources in several places: the notes list views, images, constant
buffers and samplers, a mask marks the views in use, and the metadata numbers the samplers. Read
back from the notes and the metadata, all of them count the same arguments: pointers by their
address space, images by their access, and samplers.
-/

namespace CatalystAsm

/-! ## Words -/

/-- The 32-bit numbers that bytes spell, lowest byte first. -/
def Bytes.words : Bytes → List Nat
  | a :: b :: c :: d :: rest => ofLittleEndian [a, b, c, d] :: words rest
  | _ => []

/-- The words of the note of a type; none when there is no such note. -/
def CalNote.wordsOf (notes : List CalNote) (type : NoteType) : List Nat :=
  Bytes.words (((notes.find? (·.type = type)).bind (·.data)).getD [])

/-- A word that was written is read back. -/
theorem Bytes.words_ofUInt32 (w : UInt32) (rest : Bytes) :
    words (ofUInt32 w ++ rest) = w.toNat :: words rest := by
  have hread : ofLittleEndian (ofUInt32 w) = w.toNat := by
    rw [ofUInt32, ofLittleEndian_littleEndian]
    exact Nat.mod_eq_of_lt w.toNat_lt
  exact congrArg (· :: words rest) hread

/-- Words that were written are read back. -/
theorem Bytes.words_flatMap (l : List UInt32) :
    words (l.flatMap ofUInt32) = l.map UInt32.toNat := by
  induction l with
  | nil => rfl
  | cons w l ih => rw [List.flatMap_cons, words_ofUInt32, ih, List.map_cons]

theorem toNat_ofNat_of_mem_range {n i : Nat} (hi : i ∈ List.range n) (h : n ≤ UInt32.size) :
    (UInt32.ofNat i).toNat = i :=
  UInt32.toNat_ofNat_of_lt' (Nat.lt_of_lt_of_le (List.mem_range.mp hi) h)

/-- The words of a list of entries, one entry for each number below `n`. -/
theorem Bytes.words_entries {n : Nat} {f : Nat → List UInt32} {g : Nat → List Nat}
    (h : ∀ i ∈ List.range n, (f i).map UInt32.toNat = g i) :
    words (((List.range n).flatMap f).flatMap ofUInt32) = (List.range n).flatMap g := by
  rw [words_flatMap, List.map_flatMap]
  exact List.flatMap_congr h

/-! ## The notes -/

namespace KernelConfig

/-- The words of each note are written out whole. -/
theorem data_calNotes {c : KernelConfig} {age : DriverAge} {n : CalNote} (h : n ∈ c.calNotes age) :
    ∃ words : List UInt32, n.data = some (words.flatMap Bytes.ofUInt32) := by
  simp only [calNotes, List.mem_cons, List.not_mem_nil, or_false] at h
  rcases h with rfl | rfl | rfl | rfl | rfl | rfl | rfl | rfl | rfl | rfl | rfl | rfl | rfl | rfl |
    rfl | rfl | rfl <;> exact ⟨_, rfl⟩

/-- The note about views has an entry for each of them, in order. -/
theorem wordsOf_uav (c : KernelConfig) (age : DriverAge) (h : c.views ≤ UInt32.size) :
    CalNote.wordsOf (c.calNotes age) .uav
      = (List.range c.views).flatMap fun i => [i, 4, 2, 5] := by
  have hdata : CalNote.wordsOf (c.calNotes age) .uav = Bytes.words
      ((((List.range c.resources.views).map UInt32.ofNat).flatMap fun i => [i, 4, 2, 5]).flatMap
        Bytes.ofUInt32) := rfl
  rw [hdata, resources_eq, List.flatMap_map]
  apply Bytes.words_entries
  intro i hi
  simp [toNat_ofNat_of_mem_range hi h]

/-- The note with the mask of the views has the words of the mask. -/
theorem wordsOf_uavOpMask (c : KernelConfig) (age : DriverAge) :
    CalNote.wordsOf (c.calNotes age) .uavOpMask = c.viewMask.toList.map UInt32.toNat :=
  Bytes.words_flatMap c.viewMask.toList

/-- The note about read-only images has their numbers, in order. -/
theorem wordsOf_inputs (c : KernelConfig) (age : DriverAge) (h : c.readOnlyImages ≤ UInt32.size) :
    CalNote.wordsOf (c.calNotes age) .inputs = List.range c.readOnlyImages := by
  have hdata : CalNote.wordsOf (c.calNotes age) .inputs = Bytes.words
      (((List.range c.resources.readOnlyImages).map UInt32.ofNat).flatMap Bytes.ofUInt32) := rfl
  rw [hdata, resources_eq, Bytes.words_flatMap, List.map_map]
  have hid := List.map_congr_left (l := List.range c.readOnlyImages) (g := id)
    (fun i hi => toNat_ofNat_of_mem_range hi h)
  rwa [List.map_id] at hid

/-- The numbers of constant buffers are written as words. -/
theorem wordsOf_constantBuffers_mod (c : KernelConfig) (age : DriverAge) :
    CalNote.wordsOf (c.calNotes age) .constantBuffers
      = (List.range c.constantBuffers).flatMap fun i => [i % UInt32.size, 0] := by
  have hdata : CalNote.wordsOf (c.calNotes age) .constantBuffers = Bytes.words
      ((((List.range c.resources.constantBuffers).map UInt32.ofNat).flatMap fun i => [i, 0]).flatMap
        Bytes.ofUInt32) := rfl
  rw [hdata, resources_eq, List.flatMap_map]
  apply Bytes.words_entries
  intro i _
  simp [UInt32.size]

/-- Among fewer arguments than there are words, the two buffers of the kernel make the last number
zero again when all others are taken. -/
theorem wordsOf_constantBuffers (c : KernelConfig) (age : DriverAge)
    (h : c.constantBuffers ≤ UInt32.size + 1) :
    CalNote.wordsOf (c.calNotes age) .constantBuffers =
      if c.constantBuffers = UInt32.size + 1 then
        (List.range UInt32.size).flatMap (fun i => [i, 0]) ++ [0, 0]
      else (List.range c.constantBuffers).flatMap fun i => [i, 0] := by
  have hbelow {n : Nat} (hn : n ≤ UInt32.size) :
      (List.range n).flatMap (fun i => [i % UInt32.size, 0])
        = (List.range n).flatMap fun i => [i, 0] := by
    apply List.flatMap_congr
    intro i hi
    rw [Nat.mod_eq_of_lt (Nat.lt_of_lt_of_le (List.mem_range.mp hi) hn)]
  rw [wordsOf_constantBuffers_mod]
  split
  next hall =>
    rw [hall, List.range_succ, List.flatMap_append, hbelow (Nat.le_refl _), List.flatMap_cons,
      List.flatMap_nil, Nat.mod_self, List.append_nil]
  next hsome => exact hbelow (by omega)

/-- The note about samplers has a number and a value for each of them, in order. -/
theorem wordsOf_inputSamplers (c : KernelConfig) (age : DriverAge)
    (h : c.samplerCount ≤ UInt32.size) :
    CalNote.wordsOf (c.calNotes age) .inputSamplers
      = (List.range c.samplerCount).flatMap
        fun i => [i, ((c.samplers.getD []).getD i 0).toNat] := by
  have hdata : CalNote.wordsOf (c.calNotes age) .inputSamplers = Bytes.words
      (((List.range c.resources.samplers).flatMap fun i =>
        [UInt32.ofNat i, (c.samplers.getD []).getD i 0]).flatMap Bytes.ofUInt32) := rfl
  rw [hdata, resources_eq]
  apply Bytes.words_entries
  intro i hi
  simp [toNat_ofNat_of_mem_range hi h]

/-- The program information ends with the words of the mask, each under its own key. -/
theorem wordsOf_progInfo (c : KernelConfig) (age : DriverAge) :
    ((c.viewMask.toList.map UInt32.toNat).zipIdx.flatMap fun e => [0x80001800 + e.2, e.1])
      <:+ CalNote.wordsOf (c.calNotes age) .progInfo := by
  have hdata : CalNote.wordsOf (c.calNotes age) .progInfo = Bytes.words
      (((c.progInfo age).flatMap fun e => [e.1, e.2]).flatMap Bytes.ofUInt32) := rfl
  have hkeys : ((c.viewMask.toList.map UInt32.toNat).zipIdx.flatMap
        fun e => [0x80001800 + e.2, e.1])
      = ((c.viewMask.toList.zipIdx.map fun e => (0x80001800 + UInt32.ofNat e.2, e.1)).flatMap
          fun e => [e.1, e.2]).map UInt32.toNat := by
    rw [List.zipIdx_map, List.flatMap_map, List.flatMap_map, List.map_flatMap]
    apply List.flatMap_congr
    intro e he
    have hlt : e.2 < 32 := by
      have := List.snd_lt_of_mem_zipIdx he
      rwa [Vector.length_toList] at this
    have hkey : (0x80001800 + UInt32.ofNat e.2).toNat = 0x80001800 + e.2 := by
      rw [UInt32.toNat_add, UInt32.toNat_ofNat_of_lt' (Nat.lt_trans hlt (by decide))]
      show (0x80001800 + e.2) % 4294967296 = _
      omega
    simp [hkey]
  rw [hdata, hkeys, Bytes.words_flatMap]
  unfold progInfo
  rw [List.flatMap_append, List.map_append]
  exact List.suffix_append _ _

end KernelConfig

/-! ## All counts agree -/

/-- The notes of a configured kernel and its metadata number the same resources: views are the
kernel's own one, global pointers and images that are only written; inputs are the images that are
only read; constant buffers are two of the kernel and its constant pointers, and with as many
pointers as there can be the last number is zero again. When no name brings along a sampler's line,
the samplers that are read from the text of the metadata are those of the notes, in the order of the
arguments. -/
theorem Kernel.resource_numbers_agree (k : Kernel) (age : DriverAge) (device : Device) (is64 : Bool)
    (uniqueId : UInt32) (hargs : k.config.argList.length < UInt32.size) :
    let args := k.config.argList
    let notes := k.config.calNotes age
    let views := 1 + args.countP (·.isPointerTo .global) + args.countP (·.isImageWith .writeOnly)
    let buffers := 2 + args.countP (·.isPointerTo .constant)
    let mask := CalNote.wordsOf notes .uavOpMask
    let samplers := args.filter (·.type = .sampler)
    let lines := Bytes.lines (k.configMetadata device is64 uniqueId)
    notes.map (·.type.id.toNat) = List.range' 1 17 ∧
    (∀ n ∈ notes, ∃ data, n.data = some data ∧ data.length = 4 * (Bytes.words data).length) ∧
    CalNote.wordsOf notes .uav = (List.range views).flatMap (fun i => [i, 4, 2, 5]) ∧
    mask.length = 32 ∧
    (∀ i < 1024, (mask.getD (i / 32) 0).testBit (i % 32) = true ↔
      i = k.config.uavId.toNat ∨ 1 ≤ i ∧ i < views) ∧
    mask.zipIdx.flatMap (fun e => [0x80001800 + e.2, e.1]) <:+ CalNote.wordsOf notes .progInfo ∧
    CalNote.wordsOf notes .inputs = List.range (args.countP (·.isImageWith .readOnly)) ∧
    CalNote.wordsOf notes .constantBuffers =
      (if buffers = UInt32.size + 1 then
        (List.range UInt32.size).flatMap (fun i => [i, 0]) ++ [0, 0]
      else (List.range buffers).flatMap (fun i => [i, 0])) ∧
    CalNote.wordsOf notes .inputSamplers
      = (List.range samplers.length).flatMap
          (fun i => [i, ((k.config.samplers.getD []).getD i 0).toNat]) ∧
    (k.PlainNames →
      lines.filter samplerLabel.isPrefixOf = samplers.zipIdx.map (fun e => e.1.samplerLine e.2) ∧
      lines.filterMap samplerNumber?
        = List.range ((CalNote.wordsOf notes .inputSamplers).length / 2)) := by
  intro args notes views buffers mask samplers lines
  have hmask : mask = k.config.viewMask.toList.map UInt32.toNat := k.config.wordsOf_uavOpMask age
  -- every count fits into a word, except that of the buffers, which starts at two
  have hcount (p : KernelArg → Bool) : args.countP p < UInt32.size :=
    Nat.lt_of_le_of_lt List.countP_le_length hargs
  have hviews : views ≤ UInt32.size := by
    have htaken := hcount KernelArg.takesView
    rw [KernelArg.countP_takesView] at htaken
    show 1 + args.countP (·.isPointerTo .global) + args.countP (·.isImageWith .writeOnly) ≤ _
    omega
  have hbuffers : buffers ≤ UInt32.size + 1 := by
    have := hcount (·.isPointerTo .constant)
    show 2 + args.countP (·.isPointerTo .constant) ≤ _
    omega
  have hsamplers : CalNote.wordsOf notes .inputSamplers = (List.range samplers.length).flatMap
      (fun i => [i, ((k.config.samplers.getD []).getD i 0).toNat]) := by
    have hlength : k.config.samplerCount = samplers.length := List.countP_eq_length_filter
    rw [← hlength]
    exact k.config.wordsOf_inputSamplers age (Nat.le_of_lt (hcount KernelArg.isSampler))
  refine ⟨rfl, ?_, k.config.wordsOf_uav age hviews, ?_, ?_, ?_, ?_, ?_, hsamplers, ?_⟩
  · -- all notes are written word by word
    intro n hn
    obtain ⟨words, hdata⟩ := KernelConfig.data_calNotes hn
    refine ⟨_, hdata, ?_⟩
    rw [Bytes.words_flatMap, List.length_map]
    exact length_flatMap_const Bytes.length_ofUInt32 words
  · rw [hmask, List.length_map, Vector.length_toList]
  · intro i hi
    have hword : mask.getD (i / 32) 0 = (k.config.viewMask.toList.getD (i / 32) 0).toNat := by
      rw [hmask]
      exact List.getD_map _ 0 UInt32.toNat
    rw [hword]
    exact k.config.marked_viewMask hi hviews
  · rw [hmask]
    exact k.config.wordsOf_progInfo age
  · exact k.config.wordsOf_inputs age (Nat.le_of_lt (hcount (·.isImageWith .readOnly)))
  · exact k.config.wordsOf_constantBuffers age hbuffers
  · -- the note has two words for each sampler
    intro hnames
    refine ⟨filter_lines_configMetadata hnames device is64 uniqueId, ?_⟩
    have hentries : (CalNote.wordsOf notes .inputSamplers).length = 2 * samplers.length := by
      rw [hsamplers, length_flatMap_const (n := 2) (fun _ => rfl), List.length_range]
    rw [hentries, Nat.mul_div_cancel_left _ (by decide)]
    exact samplerNumbers_configMetadata hnames device is64 uniqueId

/-- A kernel with an argument of each kind and two samplers; its own view is number 40. -/
def mixedKernel : Kernel :=
  { name := .ofString "mixed", useConfig := true,
    config :=
      { uavId := 40
        args := some [
          { name := .ofString "out", type := .pointer, space := .global },
          { name := .ofString "near", type := .sampler },
          { name := .ofString "table", type := .pointer, space := .constant },
          { name := .ofString "picture", type := ⟨17⟩, access := .writeOnly },
          { name := .ofString "texture", type := ⟨17⟩, access := .readOnly },
          { name := .ofString "far", type := .sampler }] } }

/-- Views 0 to 2 are listed, and the mask has the listed ones from 1 on and number 40. -/
theorem Kernel.resource_numbers_mixed :
    let notes := mixedKernel.config.calNotes (.ofVersion 138405)
    let lines := Bytes.lines (mixedKernel.configMetadata {} true 1025)
    mixedKernel.config.argList.length < UInt32.size ∧ mixedKernel.PlainNames ∧
    CalNote.wordsOf notes .uav = [0, 4, 2, 5, 1, 4, 2, 5, 2, 4, 2, 5] ∧
    (∀ i < 1024, ((CalNote.wordsOf notes .uavOpMask).getD (i / 32) 0).testBit (i % 32) = true ↔
      i = 40 ∨ 1 ≤ i ∧ i < 3) ∧
    CalNote.wordsOf notes .inputs = [0] ∧
    CalNote.wordsOf notes .constantBuffers = [0, 0, 1, 0, 2, 0] ∧
    CalNote.wordsOf notes .inputSamplers = [0, 0, 1, 0] ∧
    lines.filter samplerLabel.isPrefixOf
      = [Bytes.ofString ";sampler:near:0:1:0", Bytes.ofString ";sampler:far:1:1:0"] ∧
    lines.filterMap samplerNumber? = [0, 1] := by
  have hargs : mixedKernel.config.argList.length < UInt32.size := by decide
  have hnames : mixedKernel.PlainNames :=
    ⟨by decide +kernel, by decide +kernel, by decide +kernel⟩
  obtain ⟨_, _, hviews, _, hmask, _, hinputs, hbuffers, hsamplers, hlines⟩ :=
    resource_numbers_agree mixedKernel (.ofVersion 138405) {} true 1025 hargs
  obtain ⟨hlines, hnumbers⟩ := hlines hnames
  exact ⟨hargs, hnames, hviews, hmask, hinputs, hbuffers, hsamplers,
    hlines.trans (by decide +kernel), hnumbers⟩

/-- A kernel with one sampler, whose type name has the line of a sampler in it. -/
def forgedKernel : Kernel :=
  { name := .ofString "forged", useConfig := true,
    config :=
      { args := some [
          { name := .ofString "near", typeName := .ofString "sampler_t\n;sampler:far:9:1:0\n",
            type := .sampler }] } }

/-- Type names are written as they are: the metadata of one sampler has the lines of two, with
numbers 9 and 0. -/
theorem Kernel.forged_sampler_line :
    forgedKernel.config.argList.length < UInt32.size ∧
    (CalNote.wordsOf (forgedKernel.config.calNotes (.ofVersion 138405)) .inputSamplers).length / 2
      = 1 ∧
    (Bytes.lines (forgedKernel.configMetadata {} true 1025)).filterMap samplerNumber? = [9, 0] := by
  refine ⟨by decide, by decide, ?_⟩
  decide +kernel

end CatalystAsm
