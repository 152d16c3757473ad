import CatalystAsm.Proofs.Assembly.Reachable

/-!
# The model that an assembly makes

Completing the model goes through the section table and then through the exported symbols. Each
field of the model sees only the sections of its own scope and kind, and so does each field of a
kernel; this is one fact about folds (`foldl_projection`) with one equation for each field. Before,
no part of the model is filled (`Model.Unfilled`).
-/

namespace CatalystAsm

/-! ## Folds -/

/-- A projection of a fold is a fold over the elements that change it. -/
theorem foldl_projection {α β γ : Type} (g : β → γ) {step : β → α → β} {p : α → Bool}
    {update : γ → α → γ} (hstep : ∀ b x, g (step b x) = if p x then update (g b) x else g b)
    (l : List α) (b : β) : g (l.foldl step b) = (l.filter p).foldl update (g b) := by
  induction l generalizing b with
  | nil => rfl
  | cons x l ih =>
    rw [List.foldl_cons, ih, hstep]
    by_cases hx : p x = true
    · rw [if_pos hx, List.filter_cons_of_pos hx, List.foldl_cons]
    · rw [if_neg hx, List.filter_cons_of_neg hx]

/-- Adding images one after another is mapping. -/
theorem foldl_concat_eq {α β : Type} (f : α → β) (l : List α) (m : List β) :
    l.foldl (fun m x => m ++ [f x]) m = m ++ l.map f := by
  induction l generalizing m with
  | nil => exact (List.append_nil m).symm
  | cons x l ih => rw [List.foldl_cons, ih, List.append_assoc]; rfl

/-- As `foldl_projection`, where what an element changes is computed from it. -/
theorem foldl_projection_filterMap {α β γ δ : Type} (g : β → γ) {step : β → α → β}
    {f : α → Option δ} {update : γ → δ → γ}
    (hstep : ∀ b x, g (step b x) = (f x).elim (g b) (update (g b))) (l : List α) (b : β) :
    g (l.foldl step b) = (l.filterMap f).foldl update (g b) := by
  induction l generalizing b with
  | nil => rfl
  | cons x l ih =>
    rw [List.foldl_cons, ih, hstep, List.filterMap_cons]
    cases f x <;> rfl

/-- Changing what may be missing, step by step, is changing it if it is there. -/
theorem foldl_option_map {α β : Type} (f : α → β → β) (l : List α) (o : Option β) :
    l.foldl (fun o x => o.map (f x)) o = o.map fun b => l.foldl (fun b x => f x b) b := by
  induction l generalizing o with
  | nil => cases o <;> rfl
  | cons x l ih => rw [List.foldl_cons, ih]; cases o <;> rfl

theorem getElem?_modify_eq {α : Type} (f : α → α) (l : List α) (i k : Nat) :
    (l.modify i f)[k]? = if i = k then l[k]?.map f else l[k]? := by
  rw [List.getElem?_modify]
  by_cases hik : i = k
  · simp [hik]
  · simp [hik]

/-! ## Models without parts -/

/-- A kernel without any part: only its name and its configuration. -/
def Kernel.Bare (k : Kernel) : Prop :=
  ∃ name config useConfig, k = { name := name, config := config, useConfig := useConfig }

/-- A model without any part. -/
structure Model.Unfilled (m : Model) : Prop where
  globalData : m.globalData = none
  extraSections : m.extraSections = none
  extraSymbols : m.extraSymbols = none
  kernels : ∀ k ∈ m.kernelList, k.Bare

/-- A kernel without parts stays so when only its configuration changes. -/
theorem Kernel.Bare.sameParts {k l : Kernel} (h : k.Bare) (hkl : k.SameParts l) : l.Bare := by
  obtain ⟨name, config, useConfig, rfl⟩ := h
  obtain ⟨config', useConfig', rfl⟩ := hkl
  exact ⟨name, config', useConfig', rfl⟩

/-- A model without parts stays so when only texts and configurations change. -/
theorem Model.Unfilled.sameParts {m n : Model} (h : m.Unfilled) (hmn : m.SameParts n) :
    n.Unfilled where
  globalData := hmn.globalData.trans h.globalData
  extraSections := hmn.extraSections.trans h.extraSections
  extraSymbols := hmn.extraSymbols.trans h.extraSymbols
  kernels := by
    intro l hl
    obtain ⟨i, hi, rfl⟩ := List.getElem_of_mem hl
    have hlen := hmn.kernels.length_eq
    have hi' : i < m.kernelList.length := by omega
    exact (h.kernels _ (List.getElem_mem hi')).sameParts (hmn.kernels.get hi' hi)

namespace Assembler

variable {a b : Assembler}

/-- No step fills a part of the model. -/
theorem unfilled_step {scope : Scope} (h : a.output.Unfilled) (hab : StepIn scope a b) :
    b.output.Unfilled := by
  obtain ⟨d, ⟨c, hgrown, hmoved⟩, hfilled, -⟩ := hab
  have hc : c.output.Unfilled := by
    cases hgrown with
    | same => exact h
    | kernel name =>
      refine { h with kernels := ?_ }
      intro k hk
      rcases List.mem_append.mp hk with hk | hk
      · exact h.kernels k hk
      · rw [List.mem_singleton.mp hk]
        exact ⟨name, {}, false, rfl⟩
    | own => exact { h with }
    | config => exact h.sameParts (.modify _ _ fun kernel => ⟨kernel.config, true, rfl⟩)
    | extra => exact { h with }
  have hd : d.output.Unfilled := by
    cases hmoved with
    | same => exact hc
    | move => rw [output_moveTo]; exact hc
  exact hd.sameParts hfilled.sameParts

/-- Nothing is filled in before the model is completed. -/
theorem Reachable.unfilled (h : Reachable a) : a.output.Unfilled := by
  refine (h.invariant ?_ fun _ _ _ => unfilled_step).2
  intro options
  exact ⟨rfl, rfl, rfl, fun k hk => by cases hk⟩

/-! ## One section -/

section

variable (a : Assembler) (s : TableSection) (bytes : Bytes)

/-- Only the data section outside kernels becomes the global data. -/
theorem globalData_placeSection : (a.placeSection s bytes).output.globalData
    = if s.scope = .global ∧ s.kind = .data then given bytes else a.output.globalData := by
  unfold placeSection placeInModel
  cases s.scope with
  | global => cases s.kind <;> simp
  | kernel k => simp [modifyOutput]

/-- Only extra sections outside kernels are added to those of the model. -/
theorem sectionList_placeSection : (a.placeSection s bytes).output.sectionList
    = if s.scope = .global ∧ s.kind = .extra then a.output.sectionList ++ [extraSection s bytes]
      else a.output.sectionList := by
  unfold placeSection placeInModel
  cases s.scope with
  | global => cases s.kind <;> simp [Model.sectionList]
  | kernel k => simp [modifyOutput, Model.sectionList]

/-- A section of a kernel changes that kernel of the model alone. -/
theorem getElem?_placeSection (k : Nat) : (a.placeSection s bytes).output.kernelList[k]?
    = if s.scope = .kernel k then a.output.kernelList[k]?.map (placeInKernel s bytes)
      else a.output.kernelList[k]? := by
  unfold placeSection
  cases s.scope with
  | global =>
    rw [if_neg (by intro h; cases h)]
    unfold placeInModel
    cases s.kind <;> rfl
  | kernel i =>
    dsimp only
    rw [kernelList_modifyOutput, getElem?_modify_eq]
    by_cases hik : i = k
    · rw [if_pos hik, if_pos (congrArg Scope.kernel hik)]
    · rw [if_neg hik, if_neg (fun h => hik (Scope.kernel.inj h))]

end

section

variable (s : TableSection) (b : Bytes) (k : Kernel)

theorem code_placeInKernel :
    (placeInKernel s b k).code = if s.kind = .code then given b else k.code := by
  unfold placeInKernel
  cases s.kind <;> rfl

theorem data_placeInKernel :
    (placeInKernel s b k).data = if s.kind = .data then some b else k.data := by
  unfold placeInKernel
  cases s.kind <;> rfl

theorem header_placeInKernel :
    (placeInKernel s b k).header = if s.kind = .header then given b else k.header := by
  unfold placeInKernel
  cases s.kind <;> rfl

theorem metadata_placeInKernel :
    (placeInKernel s b k).metadata = if s.kind = .metadata then given b else k.metadata := by
  unfold placeInKernel
  cases s.kind <;> rfl

theorem notes_placeInKernel : (placeInKernel s b k).notes.getD []
    = if s.kind = .note then k.notes.getD [] ++ [{ type := s.noteType, data := given b }]
      else k.notes.getD [] := by
  unfold placeInKernel
  cases s.kind <;> rfl

theorem sectionList_placeInKernel : (placeInKernel s b k).sectionList
    = if s.kind = .extra then k.sectionList ++ [extraSection s b] else k.sectionList := by
  unfold placeInKernel
  cases s.kind <;> rfl

end

/-! ## All sections -/

/-- The state when every section is in the model. -/
def withSections (a : Assembler) : Assembler :=
  a.sections.zipIdx.foldl (fun b e => b.placeSection e.1 (a.content e.2))
    { a with output := { a.output with is64 := a.options.is64, device := a.options.device } }

/-- The global data is that of the last data section outside kernels. -/
theorem globalData_withSections (a : Assembler) : a.withSections.output.globalData
    = (idsOf a.sections .global .data).foldl (fun _ id => given (a.content id))
      a.output.globalData := by
  rw [idsOf, List.foldl_map]
  refine foldl_projection (fun b : Assembler => b.output.globalData) (fun b e => ?_) _ _
  rw [globalData_placeSection]
  simp

/-- The extra sections outside kernels follow in the order of the table. -/
theorem sectionList_withSections (a : Assembler) : a.withSections.output.sectionList
    = a.output.sectionList ++ (entriesOf a.sections .global .extra).map fun e =>
      extraSection e.1 (a.content e.2) := by
  rw [← foldl_concat_eq]
  refine foldl_projection (fun b : Assembler => b.output.sectionList) (fun b e => ?_) _ _
  rw [sectionList_placeSection]
  simp

/-- A kernel with its sections of the table. -/
def kernelWith (a : Assembler) (k : Nat) (kernel : Kernel) : Kernel :=
  (a.sections.zipIdx.filter fun e => e.1.scope = .kernel k).foldl
    (fun kernel e => placeInKernel e.1 (a.content e.2) kernel) kernel

/-- Every kernel of the model gets its own sections. -/
theorem getElem?_withSections (a : Assembler) (k : Nat) : a.withSections.output.kernelList[k]?
    = a.output.kernelList[k]?.map (a.kernelWith k) := by
  unfold kernelWith
  rw [← foldl_option_map]
  refine foldl_projection (fun b : Assembler => b.output.kernelList[k]?) (fun b e => ?_) _ _
  rw [getElem?_placeSection]
  simp

/-- A field of a kernel sees the sections of its kind. -/
theorem kernelWith_projection {γ : Type} {g : Kernel → γ} {kind : SectionKind}
    {u : γ → TableSection → Bytes → γ} (h : ∀ s b kernel,
      g (placeInKernel s b kernel) = if s.kind = kind then u (g kernel) s b else g kernel)
    (a : Assembler) (k : Nat) (kernel : Kernel) : g (a.kernelWith k kernel)
      = (entriesOf a.sections (.kernel k) kind).foldl
        (fun x e => u x e.1 (a.content e.2)) (g kernel) := by
  have hentries : entriesOf a.sections (.kernel k) kind
      = (a.sections.zipIdx.filter fun e => e.1.scope = .kernel k).filter
        fun e => e.1.kind = kind := by
    rw [List.filter_filter, entriesOf]
    refine List.filter_congr fun e _ => ?_
    rw [Bool.decide_and, Bool.and_comm]
  rw [hentries]
  refine foldl_projection g (fun x e => ?_) _ _
  rw [h]
  simp

/-- Sections bring no symbols. -/
theorem symbolList_withSections (a : Assembler) :
    a.withSections.output.symbolList = a.output.symbolList := by
  refine List.foldlRecOn (motive := fun b : Assembler => b.output.symbolList = _) _ _ rfl ?_
  intro b hb e _
  rw [← hb]
  unfold placeSection placeInModel
  cases e.1.scope with
  | global => cases e.1.kind <;> rfl
  | kernel k => rfl

theorem sections_withSections (a : Assembler) : a.withSections.sections = a.sections := by
  refine List.foldlRecOn (motive := fun b : Assembler => b.sections = a.sections) _ _ rfl ?_
  intro b hb e _
  rw [← hb]
  unfold placeSection
  cases e.1.scope <;> rfl

end Assembler

/-! ## Symbols -/

/-- A symbol as it goes into a model, under a tag. -/
def Symbol.exported (s : Symbol) (home : SectionTag) : ExtraSymbol :=
  { name := s.name, value := s.value, size := s.size, home, info := s.info, other := s.other }

/-- The kernel with one more symbol. -/
def Kernel.addSymbol (k : Kernel) (e : ExtraSymbol) : Kernel :=
  { k with extraSymbols := some (k.symbolList ++ [e]) }

/-- The model with one more symbol, where it belongs. -/
def Model.addSymbol (m : Model) (s : Symbol) : Option (Scope × SectionTag) → Model
  | none => m
  | some (.global, home) => { m with extraSymbols := some (m.symbolList ++ [s.exported home]) }
  | some (.kernel k, home) =>
    { m with kernels := m.kernels.map (·.modify k (·.addSymbol (s.exported home))) }

/-- Symbols are added to a kernel in their order. -/
theorem Kernel.symbolList_foldl (l : List ExtraSymbol) (k : Kernel) :
    (l.foldl addSymbol k).symbolList = k.symbolList ++ l := by
  induction l generalizing k with
  | nil => exact (List.append_nil _).symm
  | cons e l ih =>
    rw [List.foldl_cons, ih]
    exact List.append_assoc _ [e] l

/-- Symbols leave the other parts of a kernel alone. -/
theorem Kernel.foldl_addSymbol (l : List ExtraSymbol) (k : Kernel) : ∃ symbols,
    l.foldl addSymbol k = { k with extraSymbols := symbols } := by
  refine List.foldlRecOn (motive := fun j : Kernel => ∃ symbols,
    j = { k with extraSymbols := symbols }) l addSymbol ⟨k.extraSymbols, rfl⟩ ?_
  rintro _ ⟨symbols, rfl⟩ e _
  exact ⟨_, rfl⟩

namespace Assembler

/-- The symbol as it goes into the model under a scope, if it goes there. -/
def exportTo? (a : Assembler) (scope : Scope) (s : Symbol) : Option ExtraSymbol :=
  match a.symbolHome? s with
  | none => none
  | some (t, home) => if t = scope then some (s.exported home) else none

/-- What is exported is a symbol of the assembly. -/
theorem mem_symbols_of_mem_exported {a : Assembler} {s : Symbol} (h : s ∈ a.exported) :
    s ∈ a.symbols := by
  unfold exported at h
  split at h
  · exact (List.mergeSort_perm a.symbols _).mem_iff.mp (List.mem_filter.mp h).1
  · cases h

/-- A symbol only goes into the model. -/
theorem placeSymbol_eq (a : Assembler) (s : Symbol) :
    a.placeSymbol s = { a with output := a.output.addSymbol s (a.symbolHome? s) } := by
  unfold placeSymbol
  cases a.symbolHome? s with
  | none => rfl
  | some home =>
    obtain ⟨scope, tag⟩ := home
    cases scope <;> rfl

/-- Placing symbols changes the model alone, so that their sections can be looked up at the
start. -/
theorem foldl_placeSymbol (a : Assembler) (l : List Symbol) : l.foldl placeSymbol a
    = { a with output := l.foldl (fun m s => m.addSymbol s (a.symbolHome? s)) a.output } := by
  induction l generalizing a with
  | nil => rfl
  | cons s l ih =>
    rw [List.foldl_cons, ih, placeSymbol_eq]
    rfl

/-- The model is completed by the sections and then by the exported symbols. -/
theorem prepare_eq (a : Assembler) :
    a.prepare.1 = a.exported.foldl placeSymbol a.withSections := by
  unfold prepare withSections
  dsimp only
  rw [sectionContents, List.foldl_map]

/-- The completed model is the one with all sections and then the symbols one by one. -/
theorem output_prepare (a : Assembler) : a.prepare.1.output
    = a.exported.foldl (fun m s => m.addSymbol s (a.symbolHome? s)) a.withSections.output := by
  have hhome (s : Symbol) : a.withSections.symbolHome? s = a.symbolHome? s := by
    unfold symbolHome?
    rw [sections_withSections]
  rw [prepare_eq, foldl_placeSymbol]
  simp only [hhome]

theorem globalData_prepare (a : Assembler) :
    a.prepare.1.output.globalData = a.withSections.output.globalData := by
  rw [output_prepare]
  refine List.foldlRecOn (motive := fun m : Model => m.globalData = _) _ _ rfl ?_
  intro m hm s _
  rw [← hm]
  unfold Model.addSymbol
  split <;> rfl

theorem sectionList_prepare (a : Assembler) :
    a.prepare.1.output.sectionList = a.withSections.output.sectionList := by
  rw [output_prepare]
  refine List.foldlRecOn (motive := fun m : Model => m.sectionList = _) _ _ rfl ?_
  intro m hm s _
  rw [← hm]
  unfold Model.addSymbol
  split <;> rfl

/-- The symbols outside kernels are those that are exported there, in their order. -/
theorem symbolList_prepare (a : Assembler) : a.prepare.1.output.symbolList
    = a.withSections.output.symbolList ++ a.exported.filterMap (a.exportTo? .global) := by
  rw [output_prepare, ← List.map_id (a.exported.filterMap _), ← foldl_concat_eq]
  refine foldl_projection_filterMap Model.symbolList (fun m s => ?_) _ _
  unfold Model.addSymbol exportTo?
  cases a.symbolHome? s with
  | none => rfl
  | some home =>
    obtain ⟨scope, tag⟩ := home
    cases scope <;> rfl

/-- A kernel of the completed model has its sections and the symbols that are exported to it. -/
theorem getElem?_prepare (a : Assembler) (k : Nat) : a.prepare.1.output.kernelList[k]?
    = a.withSections.output.kernelList[k]?.map fun kernel =>
      (a.exported.filterMap (a.exportTo? (.kernel k))).foldl Kernel.addSymbol kernel := by
  rw [output_prepare, ← foldl_option_map fun e kernel => Kernel.addSymbol kernel e]
  refine foldl_projection_filterMap (fun m : Model => m.kernelList[k]?) (fun m s => ?_) _ _
  unfold Model.addSymbol exportTo?
  cases a.symbolHome? s with
  | none => rfl
  | some home =>
    obtain ⟨scope, tag⟩ := home
    cases scope with
    | global => rfl
    | kernel i =>
      show (Model.kernelList { m with kernels := _ })[k]? = _
      rw [Model.kernelList_modify, getElem?_modify_eq]
      dsimp only
      by_cases hik : i = k
      · rw [if_pos hik, if_pos (congrArg Scope.kernel hik)]
        rfl
      · rw [if_neg hik, if_neg (fun h => hik (Scope.kernel.inj h))]
        rfl

/-- No kernel is added or lost when the model is completed. -/
theorem length_kernelList_prepare (a : Assembler) :
    a.prepare.1.output.kernelList.length = a.output.kernelList.length := by
  have hnone (k : Nat) : a.prepare.1.output.kernelList[k]? = none
      ↔ a.output.kernelList[k]? = none := by
    rw [getElem?_prepare, getElem?_withSections, Option.map_map, Option.map_eq_none_iff]
  simp only [List.getElem?_eq_none_iff] at hnone
  exact Nat.le_antisymm ((hnone _).mpr (Nat.le_refl _)) ((hnone _).mp (Nat.le_refl _))

/-! ## The parts of the model -/

/-- A field of a kernel for a kind with at most one section. -/
theorem kernelWith_single {γ : Type} {g : Kernel → Option γ} {kind : SectionKind}
    {f : Bytes → Option γ} (h : ∀ s b kernel,
      g (placeInKernel s b kernel) = if s.kind = kind then f b else g kernel) {a : Assembler}
    {k : Nat} {o : Option Nat} (ho : idsOf a.sections (.kernel k) kind = o.toList) {kernel : Kernel}
    (hkernel : g kernel = none) : g (a.kernelWith k kernel) = o.bind fun i => f (a.content i) := by
  have hfold := kernelWith_projection (u := fun _ _ b => f b) h a k kernel
  rw [hfold, hkernel, ← List.foldl_map (f := fun e : TableSection × Nat => e.2)
    (g := fun _ i => f (a.content i))]
  change (idsOf a.sections (.kernel k) kind).foldl _ none = _
  rw [ho]
  cases o <;> rfl

/-- A field of a kernel for a kind with any number of sections. -/
theorem kernelWith_list {γ : Type} (g : Kernel → List γ) {kind : SectionKind}
    {f : TableSection → Bytes → γ} (h : ∀ s b kernel, g (placeInKernel s b kernel)
      = if s.kind = kind then g kernel ++ [f s b] else g kernel) {a : Assembler} {k : Nat}
    {kernel : Kernel} (hkernel : g kernel = []) : g (a.kernelWith k kernel)
      = (entriesOf a.sections (.kernel k) kind).map fun e => f e.1 (a.content e.2) := by
  have hfold := kernelWith_projection (u := fun l s b => l ++ [f s b]) h a k kernel
  rw [hfold, hkernel, foldl_concat_eq]
  rfl

/-- Sections bring no symbols. -/
theorem symbolList_kernelWith (a : Assembler) (k : Nat) (kernel : Kernel) :
    (a.kernelWith k kernel).symbolList = kernel.symbolList := by
  refine List.foldlRecOn (motive := fun j : Kernel => j.symbolList = kernel.symbolList) _ _ rfl ?_
  intro j hj e _
  rw [← hj]
  unfold placeInKernel
  cases e.1.kind <;> rfl

end Assembler

end CatalystAsm
