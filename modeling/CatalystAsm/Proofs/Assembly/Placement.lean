import CatalystAsm.Proofs.Assembly.Prepare

/-!
# Where the bytes of an assembly go

Every section that can hold bytes fills one place of the completed model, with all its bytes, and
every place is filled by at most one section.
-/

namespace CatalystAsm

/-- A place of a model that the bytes of a section can go to. -/
inductive ModelPlace where
  | globalData
  | code (k : Nat)
  | data (k : Nat)
  | header (k : Nat)
  | metadata (k : Nat)
  | note (k i : Nat)
  | extra (scope : Scope) (i : Nat)
  deriving DecidableEq

namespace ModelPlace

/-- The scope, the kind and the rank of the section that goes to a place. -/
def key : ModelPlace → Scope × SectionKind × Nat
  | globalData => (.global, .data, 0)
  | code k => (.kernel k, .code, 0)
  | data k => (.kernel k, .data, 0)
  | header k => (.kernel k, .header, 0)
  | metadata k => (.kernel k, .metadata, 0)
  | note k i => (.kernel k, .note, i)
  | extra scope i => (scope, .extra, i)

theorem key_injective {p q : ModelPlace} (h : p.key = q.key) : p = q := by
  cases p <;> cases q <;> simp_all [key]

end ModelPlace

namespace Assembler

variable {a : Assembler}

/-- The number of the section that goes to a place. -/
def sectionAt? (a : Assembler) : ModelPlace → Option Nat
  | .globalData => some globalData
  | .code k => a.kernels[k]?.map (·.code)
  | .data k => a.kernels[k]?.bind (·.data)
  | .header k => a.kernels[k]?.bind (·.header)
  | .metadata k => a.kernels[k]?.bind (·.metadata)
  | .note k i => a.kernels[k]?.bind (·.notes[i]?)
  | .extra scope i => (a.extrasOf? scope).bind fun extras => extras[i]?.map (·.2)

theorem getElem?_toList_zero {α : Type} (o : Option α) : o.toList[0]? = o := by
  cases o <;> rfl

/-- The section of a place is found in the table by the key of the place. -/
theorem Consistent.getElem?_idsOf (h : a.Consistent) {p : ModelPlace} {id : Nat}
    (hp : a.sectionAt? p = some id) :
    (idsOf a.sections p.key.1 p.key.2.1)[p.key.2.2]? = some id := by
  cases p with
  | globalData =>
    show (idsOf a.sections .global .data)[0]? = _
    rw [h.globals .data (by decide)]
    exact hp
  | code k =>
    obtain ⟨state, hk, hcode⟩ := Option.map_eq_some_iff.mp hp
    show (idsOf a.sections (.kernel k) .code)[0]? = _
    rw [(h.kernels k state hk).ids .code, ← hcode]
    rfl
  | extra scope i =>
    obtain ⟨extras, hextras, hi⟩ := Option.bind_eq_some_iff.mp hp
    show (idsOf a.sections scope .extra)[i]? = _
    rw [(h.extrasOf? hextras).ids, List.getElem?_map]
    exact hi
  | note k i =>
    obtain ⟨state, hk, hnote⟩ := Option.bind_eq_some_iff.mp hp
    show (idsOf a.sections (.kernel k) .note)[i]? = _
    rw [(h.kernels k state hk).ids .note]
    exact hnote
  | data k =>
    obtain ⟨state, hk, hdata⟩ := Option.bind_eq_some_iff.mp hp
    show (idsOf a.sections (.kernel k) .data)[0]? = _
    rw [(h.kernels k state hk).ids .data]
    exact (getElem?_toList_zero _).trans hdata
  | header k =>
    obtain ⟨state, hk, hheader⟩ := Option.bind_eq_some_iff.mp hp
    show (idsOf a.sections (.kernel k) .header)[0]? = _
    rw [(h.kernels k state hk).ids .header]
    exact (getElem?_toList_zero _).trans hheader
  | metadata k =>
    obtain ⟨state, hk, hmetadata⟩ := Option.bind_eq_some_iff.mp hp
    show (idsOf a.sections (.kernel k) .metadata)[0]? = _
    rw [(h.kernels k state hk).ids .metadata]
    exact (getElem?_toList_zero _).trans hmetadata

/-- Two places of one section are the same. -/
theorem Consistent.sectionAt?_injective (h : a.Consistent) {p q : ModelPlace} {id : Nat}
    (hp : a.sectionAt? p = some id) (hq : a.sectionAt? q = some id) : p = q := by
  have hpids := h.getElem?_idsOf hp
  have hqids := h.getElem?_idsOf hq
  obtain ⟨s, hs, hscope, hkind⟩ := mem_idsOf.mp (List.mem_of_getElem? hpids)
  obtain ⟨t, ht, hscope', hkind'⟩ := mem_idsOf.mp (List.mem_of_getElem? hqids)
  obtain rfl := Option.some.inj (hs.symm.trans ht)
  -- both places belong to the scope and the kind of the section, where its rank is unique
  rw [← hscope, ← hkind] at hpids
  rw [← hscope', ← hkind'] at hqids
  have hnodup : (idsOf a.sections s.scope s.kind).Nodup := (pairwise_idsOf _ _ _).imp Nat.ne_of_lt
  have hrank : p.key.2.2 = q.key.2.2 :=
    (List.getElem?_inj (List.getElem?_eq_some_iff.mp hpids).1 hnodup).mp (hpids.trans hqids.symm)
  apply ModelPlace.key_injective
  rw [Prod.ext_iff, Prod.ext_iff]
  exact ⟨hscope.symm.trans hscope', hkind.symm.trans hkind', hrank⟩

/-- Every section that can hold bytes has a place. -/
theorem Consistent.exists_sectionAt? (h : a.Consistent) {id : Nat} {s : TableSection}
    (hs : a.sections[id]? = some s) (hconfig : s.kind ≠ .config) :
    ∃ p, a.sectionAt? p = some id := by
  have hmem : id ∈ idsOf a.sections s.scope s.kind := mem_idsOf.mpr ⟨s, hs, rfl, rfl⟩
  cases hscope : s.scope with
  | global =>
    rw [hscope] at hmem
    by_cases hextra : s.kind = .extra
    · rw [hextra, h.extras.ids] at hmem
      obtain ⟨i, hi⟩ := List.mem_iff_getElem?.mp hmem
      rw [List.getElem?_map] at hi
      exact ⟨.extra .global i, hi⟩
    · rw [h.globals s.kind hextra] at hmem
      split at hmem
      · exact ⟨.globalData, congrArg some (List.mem_singleton.mp hmem).symm⟩
      · cases hmem
  | kernel k =>
    have hlt := h.owners s (List.mem_of_getElem? hs) k hscope
    have hk : a.kernels[k]? = some a.kernels[k] := List.getElem?_eq_getElem hlt
    rw [hscope, (h.kernels k _ hk).ids s.kind] at hmem
    cases hkind : s.kind with
    | config => exact absurd hkind hconfig
    | code =>
      rw [hkind] at hmem
      refine ⟨.code k, ?_⟩
      rw [sectionAt?, hk, List.mem_singleton.mp hmem]
      rfl
    | data =>
      rw [hkind] at hmem
      refine ⟨.data k, ?_⟩
      rw [sectionAt?, hk]
      exact Option.mem_toList.mp hmem
    | header =>
      rw [hkind] at hmem
      refine ⟨.header k, ?_⟩
      rw [sectionAt?, hk]
      exact Option.mem_toList.mp hmem
    | metadata =>
      rw [hkind] at hmem
      refine ⟨.metadata k, ?_⟩
      rw [sectionAt?, hk]
      exact Option.mem_toList.mp hmem
    | note =>
      rw [hkind] at hmem
      obtain ⟨i, hi⟩ := List.mem_iff_getElem?.mp hmem
      refine ⟨.note k i, ?_⟩
      rw [sectionAt?, hk]
      exact hi
    | extra =>
      rw [hkind] at hmem
      obtain ⟨i, hi⟩ := List.mem_iff_getElem?.mp hmem
      refine ⟨.extra (.kernel k) i, ?_⟩
      change (a.kernels[k].extras.map (·.2))[i]? = some id at hi
      rw [List.getElem?_map] at hi
      rw [sectionAt?, Assembler.extrasOf?, hk]
      exact hi

/-- The extra section of a number is found by its rank among those of its scope. -/
theorem Consistent.exists_rank (h : a.Consistent) {id : Nat} {t : TableSection}
    (ht : a.sections[id]? = some t) (hkind : t.kind = .extra) :
    ∃ i, (entriesOf a.sections t.scope .extra)[i]? = some (t, id) ∧ t.tag = ⟨UInt32.ofNat i⟩ := by
  have hmem : (t, id) ∈ entriesOf a.sections t.scope .extra := mem_entriesOf.mpr ⟨ht, rfl, hkind⟩
  obtain ⟨i, hi⟩ := List.mem_iff_getElem?.mp hmem
  refine ⟨i, hi, ?_⟩
  cases hscope : t.scope with
  | global =>
    rw [hscope] at hi
    exact h.extras.tag_of_getElem? hi
  | kernel k =>
    rw [hscope] at hi
    have hlt := h.owners t (List.mem_of_getElem? ht) k hscope
    exact (h.kernels k _ (List.getElem?_eq_getElem hlt)).extras.tag_of_getElem? hi

/-! ## What the places hold -/

/-- The completed model has the kernels of the assembly. -/
theorem Reachable.length_kernels_prepare (h : Reachable a) :
    a.prepare.1.output.kernelList.length = a.kernels.length :=
  (length_kernelList_prepare a).trans h.consistent.output

/-- The extra sections of the completed model outside kernels. -/
theorem Reachable.sections_prepare (h : Reachable a) : a.prepare.1.output.sectionList
    = (entriesOf a.sections .global .extra).map fun e => extraSection e.1 (a.content e.2) := by
  rw [sectionList_prepare, sectionList_withSections, Model.sectionList, h.unfilled.extraSections]
  rfl

/-- The symbols of the completed model outside kernels. -/
theorem Reachable.symbols_prepare (h : Reachable a) :
    a.prepare.1.output.symbolList = a.exported.filterMap (a.exportTo? .global) := by
  rw [symbolList_prepare, symbolList_withSections, Model.symbolList, h.unfilled.extraSymbols]
  rfl

/-- The parts of a kernel of the completed model. -/
theorem Reachable.kernel_prepare (h : Reachable a) {k : Nat} {state : KernelState} {kernel : Kernel}
    (hk : a.kernels[k]? = some state)
    (hkernel : a.prepare.1.output.kernelList[k]? = some kernel) :
    kernel.code = given (a.content state.code) ∧
    kernel.header = (state.header.bind fun id => given (a.content id)) ∧
    kernel.metadata = (state.metadata.bind fun id => given (a.content id)) ∧
    kernel.data = state.data.map a.content ∧
    kernel.notes.getD [] = (entriesOf a.sections (.kernel k) .note).map (fun e =>
      { type := e.1.noteType, data := given (a.content e.2) }) ∧
    kernel.sectionList = (entriesOf a.sections (.kernel k) .extra).map (fun e =>
      extraSection e.1 (a.content e.2)) ∧
    kernel.symbolList = a.exported.filterMap (a.exportTo? (.kernel k)) := by
  have hlists := h.consistent.kernels k state hk
  rw [getElem?_prepare, getElem?_withSections, Option.map_map] at hkernel
  obtain ⟨bare, hbare, rfl⟩ := Option.map_eq_some_iff.mp hkernel
  obtain ⟨name, config, useConfig, rfl⟩ := h.unfilled.kernels bare (List.mem_of_getElem? hbare)
  obtain ⟨symbols, hsymbols⟩ := Kernel.foldl_addSymbol
    (a.exported.filterMap (a.exportTo? (.kernel k))) (a.kernelWith k { name, config, useConfig })
  dsimp only [Function.comp_apply]
  refine ⟨?_, ?_, ?_, ?_, ?_, ?_, ?_⟩
  · rw [hsymbols]
    exact kernelWith_single code_placeInKernel (o := some state.code) (hlists.ids .code) rfl
  · rw [hsymbols]
    exact kernelWith_single header_placeInKernel (hlists.ids .header) rfl
  · rw [hsymbols]
    exact kernelWith_single metadata_placeInKernel (hlists.ids .metadata) rfl
  · rw [hsymbols, Option.map_eq_bind]
    exact kernelWith_single data_placeInKernel (hlists.ids .data) rfl
  · rw [hsymbols]
    exact kernelWith_list (fun kernel => kernel.notes.getD []) notes_placeInKernel rfl
  · rw [hsymbols]
    exact kernelWith_list Kernel.sectionList sectionList_placeInKernel rfl
  · rw [Kernel.symbolList_foldl, symbolList_kernelWith]
    rfl

/-- **Completing the model loses, doubles and misplaces no bytes.** Each part of the model is the
content of its section: the global data, and for every kernel its code, header, metadata and data,
its notes in the order of the table, and the extra sections of each scope in the order of their
numbers. Every section fills exactly one of these places, except that configurations hold no
bytes. -/
theorem prepare_places_every_section (options : Options) (f : SourceFile) (cancelled : Option Nat) :
    let a := (Assembly.ofFile options f cancelled).state
    let m := a.prepare.1.output
    m.globalData = given (a.content globalData) ∧
    m.kernelList.length = a.kernels.length ∧
    (∀ k state kernel, a.kernels[k]? = some state → m.kernelList[k]? = some kernel →
      kernel.code = given (a.content state.code) ∧
      kernel.header = (state.header.bind fun id => given (a.content id)) ∧
      kernel.metadata = (state.metadata.bind fun id => given (a.content id)) ∧
      kernel.data = state.data.map a.content ∧
      kernel.notes.getD [] = (entriesOf a.sections (.kernel k) .note).map (fun e =>
        { type := e.1.noteType, data := given (a.content e.2) }) ∧
      (entriesOf a.sections (.kernel k) .note).map (·.2) = state.notes ∧
      kernel.sectionList = (entriesOf a.sections (.kernel k) .extra).map (fun e =>
        extraSection e.1 (a.content e.2))) ∧
    m.sectionList = (entriesOf a.sections .global .extra).map (fun e =>
      extraSection e.1 (a.content e.2)) ∧
    (∀ scope extras, a.extrasOf? scope = some extras →
      (entriesOf a.sections scope .extra).map (fun e => (e.1.name, e.2)) = extras ∧
      ∀ (b : Nat) (e : TableSection × Nat), (entriesOf a.sections scope .extra)[b]? = some e →
        e.1.tag = ⟨UInt32.ofNat b⟩) ∧
    (∀ id s, a.sections[id]? = some s → s.kind ≠ .config → ∃! p, a.sectionAt? p = some id) ∧
    ∀ id s, a.sections[id]? = some s → s.kind = .config → a.content id = [] := by
  intro a m
  have hreachable : Reachable a := reachable_ofFile options f cancelled
  have hconsistent := hreachable.consistent
  refine ⟨?_, hreachable.length_kernels_prepare, ?_, hreachable.sections_prepare, ?_, ?_,
    hconsistent.configs⟩
  · show a.prepare.1.output.globalData = _
    rw [globalData_prepare, globalData_withSections, hconsistent.globals .data (by decide)]
    rfl
  · intro k state kernel hk hkernel
    obtain ⟨hcode, hheader, hmetadata, hdata, hnotes, hextras, -⟩ :=
      hreachable.kernel_prepare hk hkernel
    exact ⟨hcode, hheader, hmetadata, hdata, hnotes, (hconsistent.kernels k state hk).ids .note,
      hextras⟩
  · intro scope extras hextras
    have hlists := hconsistent.extrasOf? hextras
    exact ⟨hlists.entries, fun b e => hlists.tag_of_getElem?⟩
  · intro id s hs hconfig
    obtain ⟨p, hp⟩ := hconsistent.exists_sectionAt? hs hconfig
    exact ⟨p, hp, fun q hq => hconsistent.sectionAt?_injective hq hp⟩

end Assembler

end CatalystAsm
