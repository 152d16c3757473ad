import CatalystAsm.Proofs.Assembly.Prepare

/-!
# Configurations exclude given parts

A kernel is described by a configuration or by metadata, a header and notes, never by both. What an
assembly knows of a kernel and the kernel of the model agree on which of the two it is
(`KernelState.Describes`). The agreement is shown for each stage of a step, and so holds in every
reachable state. Completing the model then leaves a kernel with a configuration without given parts.
-/

namespace CatalystAsm

namespace KernelState

/-- No part is given if there is no metadata, no header and no note. -/
theorem hasGivenParts_eq_false_iff {k : KernelState} : k.hasGivenParts = false ↔
    k.ids .metadata = [] ∧ k.ids .header = [] ∧ k.ids .note = [] := by
  unfold hasGivenParts ids
  cases k.metadata <;> cases k.header <;> cases k.notes <;> simp

/-- The sections of a kind tell whether there is a configuration. -/
theorem config_eq_of_ids {k l : KernelState} (h : l.ids .config = k.ids .config) :
    l.config = k.config := by
  have hlists : l.config.toList = k.config.toList := h
  cases hk : k.config <;> cases hl : l.config <;> simp_all

/-- What is known of a kernel agrees with the kernel of the model: the configuration is in use if
there is one, no other part is given then, and without one the configuration is as at the start. -/
structure Describes (state : KernelState) (kernel : Kernel) : Prop where
  useConfig : kernel.useConfig = state.config.isSome
  parts : state.config.isSome = true → state.hasGivenParts = false
  config : state.config = none → kernel.config = {}
  userData : kernel.config.userDataList.length ≤ maxUserData

variable {k l : KernelState} {kernel : Kernel}

/-- A kernel with the same configuration and the same parts. -/
theorem Describes.congr (h : k.Describes kernel) (hconfig : l.config = k.config)
    (hparts : k.config.isSome = true → k.hasGivenParts = false → l.hasGivenParts = false) :
    l.Describes kernel where
  useConfig := by rw [hconfig]; exact h.useConfig
  parts := by
    intro hsome
    rw [hconfig] at hsome
    exact hparts hsome (h.parts hsome)
  config := by rw [hconfig]; exact h.config
  userData := h.userData

/-- A kernel with one more section that it admits. -/
theorem Describes.remembers {s : TableSection} {id : Nat} (h : k.Describes kernel)
    (hl : k.Remembers l s id) (hadmits : k.Admits s.kind) : l.Describes kernel := by
  obtain ⟨hkind, hothers⟩ := hadmits
  have hsame {kind : SectionKind} (hne : s.kind ≠ kind) : l.ids kind = k.ids kind := by
    rw [hl.ids kind, if_neg hne, List.append_nil]
  refine h.congr (config_eq_of_ids (hsame hkind)) fun hsome hparts => ?_
  -- with a configuration, the section is none of the parts
  obtain ⟨hmetadata, hheader, hnote⟩ := hothers hsome
  rw [hasGivenParts_eq_false_iff] at hparts ⊢
  rw [hsame hmetadata, hsame hheader, hsame hnote]
  exact hparts

end KernelState

namespace Assembler

variable {a b : Assembler}

/-- Every kernel of the model is as the assembly knows it. -/
def Described (a : Assembler) : Prop :=
  ∀ (k : Nat) (state : KernelState) (kernel : Kernel), a.kernels[k]? = some state →
    a.output.kernelList[k]? = some kernel → state.Describes kernel

/-! ## Stages -/

/-- A new kernel has neither a configuration nor given parts. -/
theorem Described.withKernel (h : a.Described)
    (hlen : a.output.kernelList.length = a.kernels.length) (name : Bytes) :
    (a.withKernel name).Described := by
  intro k state kernel hstate hkernel
  change (a.kernels ++ [_])[k]? = some state at hstate
  change (a.output.kernelList ++ [_])[k]? = some kernel at hkernel
  rcases Nat.lt_trichotomy k a.kernels.length with hlt | rfl | hgt
  · rw [List.getElem?_append_left hlt] at hstate
    rw [List.getElem?_append_left (hlen ▸ hlt)] at hkernel
    exact h k state kernel hstate hkernel
  · rw [List.getElem?_concat_length] at hstate
    rw [← hlen, List.getElem?_concat_length] at hkernel
    cases hstate
    cases hkernel
    exact ⟨rfl, fun hsome => (by cases hsome), fun _ => rfl, Nat.zero_le _⟩
  · rw [List.getElem?_eq_none (by rw [List.length_append]; exact hgt)] at hstate
    cases hstate

/-- A change of what is known of one kernel, or of that kernel in the model. -/
theorem Described.modify (h : a.Described) {i : Nat} {f : KernelState → KernelState}
    {g : Kernel → Kernel} (hkernels : b.kernels = a.kernels.modify i f)
    (houtput : b.output.kernelList = a.output.kernelList.modify i g)
    (hfg : ∀ state kernel, a.kernels[i]? = some state → a.output.kernelList[i]? = some kernel →
      state.Describes kernel → (f state).Describes (g kernel)) : b.Described := by
  intro k state kernel hstate hkernel
  rw [hkernels, getElem?_modify_eq] at hstate
  rw [houtput, getElem?_modify_eq] at hkernel
  by_cases hik : i = k
  · subst hik
    rw [if_pos rfl] at hstate hkernel
    obtain ⟨state', hstate', rfl⟩ := Option.map_eq_some_iff.mp hstate
    obtain ⟨kernel', hkernel', rfl⟩ := Option.map_eq_some_iff.mp hkernel
    exact hfg state' kernel' hstate' hkernel' (h i state' kernel' hstate' hkernel')
  · rw [if_neg hik] at hstate hkernel
    exact h k state kernel hstate hkernel

/-- What is known and the model still agree when the table grows: no kernel gets both. -/
theorem Described.grown {scope : Scope} (h : a.Described) (ha : a.Consistent)
    (hab : Grown scope a b) : b.Described := by
  cases hab with
  | same => exact h
  | kernel name => exact h.withKernel ha.output name
  | @own i k s f _ hk _ _ hf hadmits =>
    refine h.modify (i := i) (g := id) rfl (List.modify_id i _).symm ?_
    intro state kernel hstate _ hdescribes
    cases hk.symm.trans hstate
    exact hdescribes.remembers hf hadmits
  | @config i k _ hk hconfig hparts =>
    refine h.modify (i := i) rfl (kernelList_modifyOutput ..) ?_
    intro state kernel hstate _ hdescribes
    cases hk.symm.trans hstate
    exact ⟨rfl, fun _ => hparts, fun hnone => (by cases hnone), hdescribes.userData⟩
  | extra => exact h

/-- What is known and the model still agree when the assembly moves. -/
theorem Described.moved (h : a.Described) (hab : Moved a b) : b.Described := by
  cases hab with
  | same => exact h
  | move =>
    have hsaved : a.saveSection.Described := by
      unfold saveSection
      cases a.scope with
      | global => exact h
      | kernel i =>
        refine h.modify (i := i) (g := id) rfl (List.modify_id i _).symm ?_
        intro state kernel _ _ hdescribes
        exact hdescribes.congr rfl fun _ hparts => hparts
    exact hsaved

/-- Where a configuration stands, the kernel has it. -/
theorem Consistent.config_of_inConfig (h : a.Consistent) {k : Nat} (hk : a.InConfig k)
    {state : KernelState} (hstate : a.kernels[k]? = some state) :
    state.config = some a.current := by
  obtain ⟨hscope, s, hs, hkind⟩ := hk
  obtain ⟨t, ht, hown⟩ := h.current
  cases hs.symm.trans ht
  have hmem : a.current ∈ idsOf a.sections (.kernel k) .config :=
    mem_idsOf.mpr ⟨s, hs, hown.trans hscope, hkind⟩
  rw [(h.kernels k state hstate).ids .config] at hmem
  exact Option.mem_toList.mp hmem

/-- What is known and the model still agree when something is filled in. -/
theorem Described.filled (h : a.Described) (ha : a.Consistent) (hab : Filled a b) :
    b.Described := by
  cases hab with
  | @configure k config hplace huserData =>
    refine h.modify (i := k) (f := id) (List.modify_id k _).symm (kernelList_modifyOutput ..) ?_
    intro state kernel hstate hkernel hdescribes
    have hconfig := ha.config_of_inConfig hplace hstate
    refine ⟨hdescribes.useConfig, hdescribes.parts, ?_, Nat.le_trans huserData ?_⟩
    · intro hnone
      rw [id_eq, hconfig] at hnone
      cases hnone
    · rw [List.getD_eq_getElem?_getD, hkernel, Option.getD_some]
      exact Nat.max_le.mpr ⟨hdescribes.userData, Nat.le_refl _⟩
  | @use k hplace =>
    refine h.modify (i := k) (f := id) (List.modify_id k _).symm (kernelList_modifyOutput ..) ?_
    intro state kernel hstate _ hdescribes
    have hconfig := ha.config_of_inConfig hplace hstate
    refine ⟨?_, hdescribes.parts, hdescribes.config, hdescribes.userData⟩
    rw [id_eq, hconfig]
    rfl
  | _ => exact h

/-- **The kernels of a reachable state are as the assembly knows them.** -/
theorem Reachable.described (h : Reachable a) : a.Described := by
  refine (h.invariant (P := Described) ?_ ?_).2
  · intro options k state kernel hstate
    cases hstate
  · rintro scope b c hb hdescribed ⟨d, ⟨e, hgrown, hmoved⟩, hfilled, -⟩
    have he := hb.grown hgrown
    exact ((hdescribed.grown hb hgrown).moved hmoved).filled (he.moved hmoved) hfilled

/-! ## Completed kernels -/

/-- Sections leave the name and the configuration of a kernel alone. -/
theorem sameConfig_kernelWith (a : Assembler) (k : Nat) (kernel : Kernel) :
    (a.kernelWith k kernel).name = kernel.name ∧ (a.kernelWith k kernel).config = kernel.config ∧
      (a.kernelWith k kernel).useConfig = kernel.useConfig := by
  refine List.foldlRecOn (motive := fun j : Kernel => j.name = kernel.name ∧
    j.config = kernel.config ∧ j.useConfig = kernel.useConfig) _ _ ⟨rfl, rfl, rfl⟩ ?_
  intro j hj e _
  unfold placeInKernel
  cases e.1.kind <;> exact hj

/-- The kernels of the completed model, with the kernels that they come from. -/
theorem exists_of_kernel_prepare {k : Nat} {kernel : Kernel}
    (h : a.prepare.1.output.kernelList[k]? = some kernel) :
    ∃ start symbols, a.output.kernelList[k]? = some start ∧
      kernel = { a.kernelWith k start with extraSymbols := symbols } := by
  rw [getElem?_prepare, getElem?_withSections, Option.map_map] at h
  obtain ⟨start, hstart, hkernel⟩ := Option.map_eq_some_iff.mp h
  obtain ⟨symbols, hsymbols⟩ := Kernel.foldl_addSymbol
    (a.exported.filterMap (a.exportTo? (.kernel k))) (a.kernelWith k start)
  exact ⟨start, symbols, hstart, hkernel.symm.trans hsymbols⟩

theorem entriesOf_eq_nil {sections : List TableSection} {scope : Scope} {kind : SectionKind}
    (h : idsOf sections scope kind = []) : entriesOf sections scope kind = [] :=
  List.map_eq_nil_iff.mp h

/-- A kernel without a note in the table has no note in the model. -/
theorem notes_kernelWith_eq_none {k : Nat} {kernel : Kernel} (hkernel : kernel.notes = none)
    (h : idsOf a.sections (.kernel k) .note = []) : (a.kernelWith k kernel).notes = none := by
  have hnotes (s : TableSection) (b : Bytes) (j : Kernel) : (placeInKernel s b j).notes
      = if s.kind = .note then some (j.notes.getD [] ++ [{ type := s.noteType, data := given b }])
        else j.notes := by
    unfold placeInKernel
    cases s.kind <;> rfl
  have hfold := kernelWith_projection (g := (·.notes)) (u := fun notes s b =>
    some (notes.getD [] ++ [{ type := s.noteType, data := given b }])) hnotes a k kernel
  rw [entriesOf_eq_nil h] at hfold
  exact hfold.trans hkernel

/-- A kernel whose parts are not given is completed without them. -/
theorem parts_kernelWith_eq_none {k : Nat} {kernel : Kernel} (hbare : kernel.Bare)
    (hmetadata : idsOf a.sections (.kernel k) .metadata = [])
    (hheader : idsOf a.sections (.kernel k) .header = [])
    (hnote : idsOf a.sections (.kernel k) .note = []) :
    (a.kernelWith k kernel).header = none ∧ (a.kernelWith k kernel).metadata = none ∧
      (a.kernelWith k kernel).notes = none := by
  obtain ⟨name, config, useConfig, rfl⟩ := hbare
  refine ⟨?_, ?_, notes_kernelWith_eq_none rfl hnote⟩
  · exact kernelWith_single (o := none) header_placeInKernel hheader rfl
  · exact kernelWith_single (o := none) metadata_placeInKernel hmetadata rfl

/-! ## Sections of kernels -/

/-- A kernel has a section of a kind. -/
def HasSection (a : Assembler) (k : Nat) (kind : SectionKind) : Prop :=
  ∃ s ∈ a.sections, s.scope = .kernel k ∧ s.kind = kind

instance (a : Assembler) (k : Nat) (kind : SectionKind) : Decidable (a.HasSection k kind) :=
  inferInstanceAs (Decidable (∃ s ∈ a.sections, s.scope = .kernel k ∧ s.kind = kind))

/-- A kernel has a section of a kind if the table lists one. -/
theorem hasSection_iff {k : Nat} {kind : SectionKind} :
    a.HasSection k kind ↔ idsOf a.sections (.kernel k) kind ≠ [] := by
  constructor
  · rintro ⟨s, hs, hscope, hkind⟩
    obtain ⟨id, hid⟩ := List.getElem?_of_mem hs
    exact List.ne_nil_of_mem (mem_idsOf.mpr ⟨s, hid, hscope, hkind⟩)
  · intro hne
    obtain ⟨id, hid⟩ := List.exists_mem_of_ne_nil _ hne
    obtain ⟨s, hs, hscope, hkind⟩ := mem_idsOf.mp hid
    exact ⟨s, List.mem_of_getElem? hs, hscope, hkind⟩

theorem Consistent.hasSection_iff_ids (h : a.Consistent) {k : Nat} {state : KernelState}
    (hstate : a.kernels[k]? = some state) {kind : SectionKind} :
    a.HasSection k kind ↔ state.ids kind ≠ [] := by
  rw [hasSection_iff, (h.kernels k state hstate).ids kind]

/-- A kernel has a configuration if one is remembered. -/
theorem Consistent.hasSection_config (h : a.Consistent) {k : Nat} {state : KernelState}
    (hstate : a.kernels[k]? = some state) :
    a.HasSection k .config ↔ state.config.isSome = true := by
  rw [h.hasSection_iff_ids hstate]
  unfold KernelState.ids
  cases state.config <;> simp

/-- The state of a kernel of the model. -/
theorem Consistent.exists_state (h : a.Consistent) {k : Nat} {kernel : Kernel}
    (hkernel : a.output.kernelList[k]? = some kernel) : ∃ state, a.kernels[k]? = some state := by
  have hlt : k < a.output.kernelList.length := (List.getElem?_eq_some_iff.mp hkernel).1
  rw [h.output] at hlt
  exact ⟨_, List.getElem?_eq_getElem hlt⟩

/-- A kernel with a configuration has no section for another part. -/
theorem Reachable.no_parts (h : Reachable a) {k : Nat} {state : KernelState} {kernel : Kernel}
    (hstate : a.kernels[k]? = some state) (hkernel : a.output.kernelList[k]? = some kernel)
    (hconfig : state.config.isSome = true) :
    state.ids .metadata = [] ∧ state.ids .header = [] ∧ state.ids .note = [] :=
  KernelState.hasGivenParts_eq_false_iff.mp
    ((h.described k state kernel hstate hkernel).parts hconfig)

/-- **Configurations and given parts exclude each other.** In every reachable state a kernel uses a
configuration exactly when it has a section for one, it has no metadata, no header and no notes
then, and without one its configuration is as at the start; what the assembly remembers of the
kernel says the same. The completed kernel has none of the given parts either. -/
theorem config_excludes_given_parts (h : Reachable a) :
    (∀ k kernel, a.output.kernelList[k]? = some kernel →
      (kernel.useConfig = true ↔ a.HasSection k .config) ∧
      (a.HasSection k .config →
        ¬a.HasSection k .metadata ∧ ¬a.HasSection k .header ∧ ¬a.HasSection k .note) ∧
      (kernel.config ≠ {} → a.HasSection k .config)) ∧
    (∀ k state, a.kernels[k]? = some state →
      (state.config.isSome = true ↔ a.HasSection k .config) ∧
      (state.config.isSome = true →
        state.metadata = none ∧ state.header = none ∧ state.notes = [])) ∧
    ∀ k kernel, a.prepare.1.output.kernelList[k]? = some kernel →
      (kernel.useConfig = true ↔ a.HasSection k .config) ∧
      (kernel.useConfig = true →
        kernel.header = none ∧ kernel.metadata = none ∧ kernel.notes = none) := by
  have hconsistent := h.consistent
  refine ⟨?_, ?_, ?_⟩
  · intro k kernel hkernel
    obtain ⟨state, hstate⟩ := hconsistent.exists_state hkernel
    have hdescribes := h.described k state kernel hstate hkernel
    have hsection := hconsistent.hasSection_config hstate
    refine ⟨?_, ?_, ?_⟩
    · rw [hdescribes.useConfig, hsection]
    · intro hconfig
      have hparts := h.no_parts hstate hkernel (hsection.mp hconfig)
      simp only [hconsistent.hasSection_iff_ids hstate, hparts, ne_eq, not_true, not_false_iff,
        and_self]
    · intro hne
      rw [hsection, ← Option.ne_none_iff_isSome]
      exact fun hnone => hne (hdescribes.config hnone)
  · intro k state hstate
    refine ⟨(hconsistent.hasSection_config hstate).symm, fun hconfig => ?_⟩
    have hlt : k < a.output.kernelList.length :=
      hconsistent.output ▸ (List.getElem?_eq_some_iff.mp hstate).1
    obtain ⟨hmetadata, hheader, hnotes⟩ :=
      h.no_parts hstate (List.getElem?_eq_getElem hlt) hconfig
    exact ⟨Option.toList_eq_nil_iff.mp hmetadata, Option.toList_eq_nil_iff.mp hheader, hnotes⟩
  · intro k kernel hkernel
    obtain ⟨start, symbols, hstart, rfl⟩ := exists_of_kernel_prepare hkernel
    obtain ⟨state, hstate⟩ := hconsistent.exists_state hstart
    have hsame := a.sameConfig_kernelWith k start
    have hdescribes := h.described k state start hstate hstart
    have huse : (a.kernelWith k start).useConfig = state.config.isSome :=
      hsame.2.2.trans hdescribes.useConfig
    refine ⟨?_, fun hconfig => ?_⟩
    · show (a.kernelWith k start).useConfig = true ↔ _
      rw [huse, hconsistent.hasSection_config hstate]
    · obtain ⟨hmetadata, hheader, hnote⟩ := h.no_parts hstate hstart (huse.symm.trans hconfig)
      have hlists := hconsistent.kernels k state hstate
      exact parts_kernelWith_eq_none (h.unfilled.kernels start (List.mem_of_getElem? hstart))
        ((hlists.ids _).trans hmetadata) ((hlists.ids _).trans hheader) ((hlists.ids _).trans hnote)

/-- A kernel with a configuration and a kernel with metadata and a note. -/
def configAndNotes : SourceFile where
  id := 0
  path := []
  content := .ofString ".kernel a\n.config\n.sgprsnum 5\n.kernel b\n.metadata\n.byte 1\n.uav"

/-- The configuration and the given parts each end up in their own kernel. -/
theorem config_and_notes_in_their_kernels :
    let a := (Assembly.ofFile {} configAndNotes none).state
    (∃ kernel, a.prepare.1.output.kernelList[0]? = some kernel ∧ kernel.config.sgprs = 5 ∧
      kernel.header = none ∧ kernel.metadata = none ∧ kernel.notes = none) ∧
    a.HasSection 0 .config ∧ ¬a.HasSection 0 .note ∧
    a.HasSection 1 .metadata ∧ a.HasSection 1 .note ∧ ¬a.HasSection 1 .config := by
  intro a
  obtain ⟨hkernels, -, hcompleted⟩ :=
    config_excludes_given_parts (reachable_ofFile {} configAndNotes none)
  have hfirst : (a.prepare.1.output.kernelList[0]?.map fun kernel =>
      (kernel.useConfig, kernel.config.sgprs)) = some (true, 5) := by decide +kernel
  obtain ⟨kernel, hkernel, hvalues⟩ := Option.map_eq_some_iff.mp hfirst
  obtain ⟨huse, hsgprs⟩ := Prod.mk.inj hvalues
  obtain ⟨hconfig, hparts⟩ := hcompleted 0 kernel hkernel
  have hstart : a.output.kernelList[0]?.isSome = true := by decide +kernel
  obtain ⟨start, hstart⟩ := Option.isSome_iff_exists.mp hstart
  obtain ⟨-, hexcludes, -⟩ := hkernels 0 start hstart
  refine ⟨⟨kernel, hkernel, hsgprs, hparts huse⟩, hconfig.mp huse,
    (hexcludes (hconfig.mp huse)).2.2, ?_, ?_, ?_⟩
  · decide +kernel
  · decide +kernel
  · decide +kernel

end Assembler

end CatalystAsm
