import CatalystAsm.Proofs.Assembly.Table
import CatalystAsm.Proofs.Statement.Expression
import Mathlib.Data.List.Forall2

/-!
# Steps of an assembly

Whatever is executed changes the state in three stages: the section table grows by at most one
section, the assembly moves to another section, and something is filled in without touching the
table. `Assembler.Step` is the sequence of the three. Every invariant of an assembly is shown for
each stage; here that is `Assembler.Consistent`.
-/

namespace CatalystAsm

/-- A name as statements have it. -/
def IsName (name : Bytes) : Prop := ∀ b ∈ name, Statement.isNameByte b = true

/-- A change of a symbol that leaves its name and its definition alone. -/
def Symbol.KeepsDefinition (f : Symbol → Symbol) : Prop :=
  ∀ s, (f s).name = s.name ∧ (f s).defined = s.defined ∧ (f s).value = s.value ∧
    (f s).home = s.home

/-- Two kernels that differ at most in their configuration. -/
def Kernel.SameParts (k l : Kernel) : Prop :=
  ∃ config useConfig, l = { k with config := config, useConfig := useConfig }

/-- Two models that differ at most in the texts of the binary and the configurations of kernels. -/
structure Model.SameParts (m n : Model) : Prop where
  globalData : n.globalData = m.globalData
  extraSections : n.extraSections = m.extraSections
  extraSymbols : n.extraSymbols = m.extraSymbols
  kernels : List.Forall₂ Kernel.SameParts m.kernelList n.kernelList

theorem Kernel.SameParts.refl (k : Kernel) : k.SameParts k := ⟨k.config, k.useConfig, rfl⟩

/-- Changing a kernel of the model changes it in the list of kernels. -/
theorem Model.kernelList_modify (m : Model) (k : Nat) (f : Kernel → Kernel) :
    ({ m with kernels := m.kernels.map (·.modify k f) } : Model).kernelList
      = m.kernelList.modify k f := by
  unfold Model.kernelList
  cases m.kernels with
  | none => exact (List.modify_nil f k).symm
  | some l => rfl

/-- Changing one item by what is related to it leaves the lists related item by item. -/
theorem forall₂_modify {α : Type} {R : α → α → Prop} (hrefl : ∀ x, R x x) {f : α → α}
    (hf : ∀ x, R x (f x)) : ∀ (l : List α) (k : Nat), List.Forall₂ R l (l.modify k f)
  | [], k => by rw [List.modify_nil]; exact .nil
  | x :: l, 0 => .cons (hf x) (List.forall₂_same.mpr fun y _ => hrefl y)
  | x :: l, k + 1 => .cons (hrefl x) (forall₂_modify hrefl hf l k)

/-- A model with other texts has the same parts. -/
theorem Model.SameParts.texts (m : Model) (options info : Bytes) (version : UInt32) :
    m.SameParts { m with
      compileOptions := options, driverInfo := info, driverVersion := version } :=
  ⟨rfl, rfl, rfl, List.forall₂_same.mpr fun k _ => .refl k⟩

theorem Model.SameParts.refl (m : Model) : m.SameParts m :=
  .texts m m.compileOptions m.driverInfo m.driverVersion

/-- A change of a kernel's configuration. -/
theorem Model.SameParts.modify (m : Model) (k : Nat) {f : Kernel → Kernel}
    (hf : ∀ kernel : Kernel, kernel.SameParts (f kernel)) :
    m.SameParts { m with kernels := m.kernels.map (·.modify k f) } := by
  refine ⟨rfl, rfl, rfl, ?_⟩
  rw [Model.kernelList_modify]
  exact forall₂_modify Kernel.SameParts.refl hf _ k

/-- What a list of symbols holds after an update. -/
theorem Symbol.mem_update {symbols : List Symbol} {name : Bytes} {span : Span}
    {f : Symbol → Symbol} {s : Symbol} (h : s ∈ Symbol.update symbols name span f) :
    s ∈ symbols ∨ ∃ t, (t ∈ symbols ∨ t = { name, span }) ∧ t.name = name ∧ s = f t := by
  unfold Symbol.update at h
  split at h
  · obtain ⟨t, ht, rfl⟩ := List.mem_map.mp h
    split
    · rename_i hname
      exact .inr ⟨t, .inl ht, beq_iff_eq.mp hname, rfl⟩
    · exact .inl ht
  · rcases List.mem_append.mp h with h | h
    · exact .inl h
    · exact .inr ⟨{ name, span }, .inr rfl, rfl, List.mem_singleton.mp h⟩

namespace Assembler

/-! ## Stages -/

/-- An assembly with one more kernel, before it moves there. -/
def withKernel (a : Assembler) (name : Bytes) : Assembler :=
  let code : TableSection :=
    { scope := .kernel a.kernels.length, kind := .code, tag := .text, name := codeName }
  { a with
    sections := a.sections ++ [code],
    kernels := a.kernels ++ [{ code := a.sections.length, saved := a.sections.length }],
    output := { a.output with kernels := some (a.output.kernelList ++ [{ name := name }]) } }

/-- A new kernel is remembered first, and then the assembly moves to its code. -/
theorem addKernel_eq (a : Assembler) (name : Bytes) : a.addKernel name
    = ((a.withKernel name).moveTo (.kernel a.kernels.length) a.sections.length,
      a.kernels.length) := rfl

/-- An assembly with a configuration for kernel `i`, which is taken in use, before it moves
there. -/
def withConfig (a : Assembler) (i : Nat) : Assembler :=
  ((a.newSection { scope := .kernel i, kind := .config }).1.modifyKernel i fun s =>
    { s with config := some a.sections.length }).modifyOutput i fun kernel =>
      { kernel with useConfig := true }

/-- The section table grows by at most one section, which is remembered where it belongs: the code
of a new kernel or a section of the scope. -/
inductive Grown (scope : Scope) (a : Assembler) : Assembler → Prop
  | same : Grown scope a a
  | kernel (name : Bytes) : Grown scope a (a.withKernel name)
  | own {i : Nat} {k : KernelState} {s : TableSection} {f : KernelState → KernelState} :
    scope = .kernel i → a.kernels[i]? = some k → s.scope = .kernel i → s.Fits k.extras →
      k.Remembers (f k) s a.sections.length → k.Admits s.kind →
      Grown scope a ((a.newSection s).1.modifyKernel i f)
  | config {i : Nat} {k : KernelState} :
    scope = .kernel i → a.kernels[i]? = some k → k.config = none → k.hasGivenParts = false →
      Grown scope a (a.withConfig i)
  | extra {s : TableSection} : s.scope = .global → s.kind = .extra → s.Fits a.extras →
    Grown scope a ((a.newSection s).1.addExtra .global s.name a.sections.length)

/-- The assembly stays where it is or moves to a section of the table. -/
inductive Moved (a : Assembler) : Assembler → Prop
  | same : Moved a a
  | move {scope : Scope} {id : Nat} : Owns a.sections scope id → Moved a (a.moveTo scope id)

/-- The assembly stands in the configuration of a kernel. -/
structure InConfig (a : Assembler) (k : Nat) : Prop where
  scope : a.scope = .kernel k
  kind : ∃ s, a.sections[a.current]? = some s ∧ s.kind = .config

/-- Something is filled in without touching the table: data, symbols, the target, the model or the
names of kernels. A kernel of the model changes only in its configuration. -/
inductive Filled (a : Assembler) : Assembler → Prop
  | same : Filled a a
  | put {s : TableSection} (b : Bytes) : a.sections[a.current]? = some s → s.kind ≠ .config →
    Filled a { a with contents := appendTo a.contents a.current b, hasContent := true }
  | define {name : Bytes} (span : Span) {v : Value} : IsName name →
    (∀ s, Symbol.find? a.symbols name = some s → s.defined = false) →
    v.HomeIn (·.toNat < a.sections.length) →
    Filled a { a with symbols := Symbol.update a.symbols name span (·.define v span) }
  | mark {f : Symbol → Symbol} {names : List (Bytes × Span)} : Symbol.KeepsDefinition f →
    (∀ n ∈ names, IsName n.1) →
    Filled a { a with symbols := names.foldl (fun l n => Symbol.update l n.1 n.2 f) a.symbols }
  | target (is64 : Bool) (device : Device) : Filled a { a with options := { a.options with
      is64 := is64, device := device } }
  | texts (options info : Bytes) (version : UInt32) : Filled a { a with output := { a.output with
      compileOptions := options, driverInfo := info, driverVersion := version } }
  | configure {k : Nat} {config : KernelConfig} : a.InConfig k → config.userDataList.length
      ≤ max (a.output.kernelList.getD k {}).config.userDataList.length maxUserData →
    Filled a (a.setConfig k config)
  | use {k : Nat} : a.InConfig k →
    Filled a (a.modifyOutput k fun kernel => { kernel with useConfig := true })
  | named {names : List (Bytes × Nat)} (hasContent : Bool) :
    (∀ e ∈ names, e.2 < a.kernels.length) →
    Filled a { a with kernelNames := names, hasContent := hasContent }

/-- The table grows and the assembly moves. -/
def Entered (scope : Scope) (a b : Assembler) : Prop := ∃ c, Grown scope a c ∧ Moved c b

/-- One step in a scope: the table grows, the assembly moves, and something is filled in. Bytes go
where the assembly stood before or into the new section, and the model changes only while the
assembly is in the scope. -/
def StepIn (scope : Scope) (a b : Assembler) : Prop :=
  ∃ c, Entered scope a c ∧ Filled c b ∧
    (b.contents = c.contents ∨ c.current = a.current ∨ c.current = a.sections.length) ∧
    (b.output = c.output ∨ c.scope = scope)

/-- One step in the scope where the assembly stands. -/
def Step (a b : Assembler) : Prop := StepIn a.scope a b

/-- Moving is entering a section that was there. -/
theorem Moved.entered {scope : Scope} {a b : Assembler} (h : Moved a b) : Entered scope a b :=
  ⟨a, .same, h⟩

/-- Entering a section is a step in which nothing is filled in. -/
theorem Entered.step {scope : Scope} {a b : Assembler} (h : Entered scope a b) : StepIn scope a b :=
  ⟨b, h, .same, .inl rfl, .inl rfl⟩

/-- Entering a section of the current scope is a step of the assembly. -/
theorem Entered.step_here {scope : Scope} {a b : Assembler} (hscope : a.scope = scope)
    (h : Entered scope a b) : Step a b := by
  subst hscope
  exact h.step

/-- Filling something in is a step in which the assembly stays where it is. -/
theorem Filled.step {a b : Assembler} (h : Filled a b) : Step a b :=
  ⟨a, ⟨a, .same, .same⟩, h, .inr (.inl rfl), .inr rfl⟩

theorem Step.refl (a : Assembler) : Step a a := Filled.same.step

/-- What is filled in leaves all parts of the kernels but their configurations. -/
theorem Filled.sameParts {a b : Assembler} (h : Filled a b) : a.output.SameParts b.output := by
  cases h with
  | texts options info version => exact .texts a.output options info version
  | @configure k config =>
    exact .modify a.output k fun kernel => ⟨config, kernel.useConfig, rfl⟩
  | @use k => exact .modify a.output k fun kernel => ⟨kernel.config, true, rfl⟩
  | _ => exact .refl a.output

/-! ## What moving leaves alone -/

section

variable (a : Assembler) (scope : Scope) (id : Nat)

@[simp] theorem sections_moveTo : (a.moveTo scope id).sections = a.sections := by
  unfold moveTo saveSection
  cases a.scope <;> rfl

@[simp] theorem contents_moveTo : (a.moveTo scope id).contents = a.contents := by
  unfold moveTo saveSection
  cases a.scope <;> rfl

@[simp] theorem symbols_moveTo : (a.moveTo scope id).symbols = a.symbols := by
  unfold moveTo saveSection
  cases a.scope <;> rfl

@[simp] theorem options_moveTo : (a.moveTo scope id).options = a.options := by
  unfold moveTo saveSection
  cases a.scope <;> rfl

@[simp] theorem output_moveTo : (a.moveTo scope id).output = a.output := by
  unfold moveTo saveSection
  cases a.scope <;> rfl

@[simp] theorem length_kernels_moveTo :
    (a.moveTo scope id).kernels.length = a.kernels.length := by
  unfold moveTo saveSection
  cases a.scope with
  | global => rfl
  | kernel i => exact List.length_modify ..

end

/-! ## Consistency -/

section

variable {a b : Assembler}

/-- A section that has no contents yet is empty. -/
theorem content_of_length_le {id : Nat} (h : a.contents.length ≤ id) : a.content id = [] := by
  rw [content, List.getD_eq_getElem?_getD, List.getElem?_eq_none h]
  rfl

/-- Every configuration is still empty when the table grows. -/
theorem Consistent.configs_append (h : a.Consistent) (s : TableSection) (id : Nat)
    (t : TableSection) (ht : (a.sections ++ [s])[id]? = some t) (hkind : t.kind = .config) :
    a.content id = [] := by
  rcases Nat.lt_or_ge id a.sections.length with hlt | hge
  · rw [List.getElem?_append_left hlt] at ht
    exact h.configs id t ht hkind
  · exact content_of_length_le (Nat.le_trans h.contents hge)

/-- The sections of the symbols are still in the table when it grows. -/
theorem Consistent.homes_append (h : a.Consistent) (s : TableSection) :
    ∀ t ∈ a.symbols, ∀ id, t.home = some id → id < (a.sections ++ [s]).length := by
  intro t ht id hid
  rw [List.length_append]
  exact Nat.lt_add_right _ (h.homes t ht id hid)

/-- A section of a kernel does not change what the global scope holds. -/
theorem Consistent.globals_append_kernel (h : a.Consistent) {s : TableSection} {i : Nat}
    (hs : s.scope = .kernel i) (kind : SectionKind) (hkind : kind ≠ .extra) :
    idsOf (a.sections ++ [s]) .global kind = if kind = .data then [globalData] else [] := by
  rw [idsOf_append, if_neg, List.append_nil]
  · exact h.globals kind hkind
  · rintro ⟨hscope, -⟩
    rw [hs] at hscope
    cases hscope

/-- A section of a kernel does not change the extra sections of the global scope. -/
theorem Consistent.extras_append_kernel (h : a.Consistent) {s : TableSection} {i : Nat}
    (hs : s.scope = .kernel i) : ListsExtras (a.sections ++ [s]) .global a.extras := by
  refine h.extras.append_other ?_
  rintro ⟨hscope, -⟩
  rw [hs] at hscope
  cases hscope

/-- A kernel of the changed list is a kernel of the list, changed if its number is the one given. -/
theorem getElem?_modifyKernel {i j : Nat} {f : KernelState → KernelState} {k : KernelState}
    (h : (a.kernels.modify i f)[j]? = some k) :
    ∃ l, a.kernels[j]? = some l ∧ (if i = j then f l else l) = k := by
  rw [List.getElem?_modify] at h
  exact Option.map_eq_some_iff.mp h

/-- Remembering the current section in its kernel breaks no invariant. -/
theorem Consistent.saveSection (h : a.Consistent) : a.saveSection.Consistent := by
  unfold Assembler.saveSection
  have hcurrent := h.current
  split
  · rename_i hscope
    rw [hscope] at hcurrent
    exact { h with saved := hcurrent }
  · rename_i i hscope
    rw [hscope] at hcurrent
    have hlen : (a.kernels.modify i fun k => { k with saved := a.current }).length
        = a.kernels.length := List.length_modify ..
    refine { h with
      kernels := ?_
      owners := fun s hs j hj => Nat.lt_of_lt_of_eq (h.owners s hs j hj) hlen.symm
      names := fun e he => Nat.lt_of_lt_of_eq (h.names e he) hlen.symm
      output := h.output.trans hlen.symm }
    intro j k hk
    obtain ⟨l, hl, rfl⟩ := getElem?_modifyKernel hk
    by_cases hij : i = j
    · rw [if_pos hij]
      exact (h.kernels j l hl).with_saved (hij ▸ hcurrent)
    · rw [if_neg hij]
      exact h.kernels j l hl

/-- **Moving** keeps the state consistent. -/
theorem Consistent.moved (h : a.Consistent) (hab : Moved a b) : b.Consistent := by
  cases hab with
  | same => exact h
  | @move scope id howns =>
    have hsections : a.saveSection.sections = a.sections := a.sections_moveTo scope id
    exact { h.saveSection with current := hsections ▸ howns }

/-- A new kernel with its code keeps the state consistent. -/
theorem Consistent.withKernel (h : a.Consistent) (name : Bytes) :
    (a.withKernel name).Consistent := by
  have hnone (kind : SectionKind) : entriesOf a.sections (.kernel a.kernels.length) kind = [] := by
    rw [List.eq_nil_iff_forall_not_mem]
    intro e he
    obtain ⟨hs, hscope, -⟩ := mem_entriesOf.mp he
    exact Nat.lt_irrefl _ (h.owners e.1 (List.mem_of_getElem? hs) _ hscope)
  have hlen : (a.withKernel name).kernels.length = a.kernels.length + 1 := List.length_append
  refine {
    current := h.current.append
    saved := h.saved.append
    kernels := ?_
    extras := h.extras_append_kernel rfl
    extraCount := h.extraCount
    globals := h.globals_append_kernel rfl
    owners := ?_
    tags := ?_
    names := fun e he => Nat.lt_of_lt_of_eq (Nat.lt_succ_of_lt (h.names e he)) hlen.symm
    homes := h.homes_append _
    contents := Nat.le_trans h.contents (by simp [Assembler.withKernel])
    configs := h.configs_append _
    output := ?_ }
  · intro i k hk
    rcases Nat.lt_trichotomy i a.kernels.length with hlt | heq | hgt
    · have hold : a.kernels[i]? = some k := by
        rw [← hk]
        exact (List.getElem?_append_left hlt).symm
      refine (h.kernels i k hold).append_other ?_
      intro hscope
      exact Nat.ne_of_gt hlt (Scope.kernel.inj hscope)
    · -- the new kernel has its code section and nothing else
      subst heq
      obtain rfl : k = { code := a.sections.length, saved := a.sections.length } :=
        (Option.some.inj (List.getElem?_concat_length.symm.trans hk)).symm
      refine ⟨fun kind => ?_, ?_, rfl, owns_length _⟩
      · rw [Assembler.withKernel, idsOf_append, idsOf, hnone]
        cases kind <;> simp [KernelState.ids]
      · refine ⟨?_, ?_, List.nodup_nil⟩
        · simp [Assembler.withKernel, entriesOf_append, hnone]
        · simp [Assembler.withKernel, entriesOf_append, hnone]
    · rw [List.getElem?_eq_none (by omega)] at hk
      cases hk
  · intro s hs i hi
    rw [hlen]
    rcases List.mem_append.mp hs with hs | hs
    · exact Nat.lt_succ_of_lt (h.owners s hs i hi)
    · rw [List.mem_singleton.mp hs] at hi
      cases hi
      exact Nat.lt_succ_self _
  · intro s hs hkind
    rcases List.mem_append.mp hs with hs | hs
    · exact h.tags s hs hkind
    · rw [List.mem_singleton.mp hs]
      rfl
  · show (a.output.kernelList ++ [_]).length = _
    rw [List.length_append, h.output, hlen]
    rfl

/-- A new section of a kernel, remembered by that kernel, keeps the state consistent. -/
theorem Consistent.newOwn (h : a.Consistent) {i : Nat} {k : KernelState} {s : TableSection}
    {f : KernelState → KernelState} (hk : a.kernels[i]? = some k) (hscope : s.scope = .kernel i)
    (hfits : s.Fits k.extras) (hf : k.Remembers (f k) s a.sections.length) :
    ((a.newSection s).1.modifyKernel i f).Consistent := by
  have hlen : (a.kernels.modify i f).length = a.kernels.length := List.length_modify ..
  have hi : i < a.kernels.length := (List.getElem?_eq_some_iff.mp hk).1
  refine {
    current := h.current.append
    saved := h.saved.append
    kernels := ?_
    extras := h.extras_append_kernel hscope
    extraCount := h.extraCount
    globals := h.globals_append_kernel hscope
    owners := ?_
    tags := ?_
    names := fun e he => Nat.lt_of_lt_of_eq (h.names e he) hlen.symm
    homes := h.homes_append s
    contents := Nat.le_trans h.contents (by simp [newSection, modifyKernel])
    configs := h.configs_append s
    output := h.output.trans hlen.symm }
  · intro j l hl
    obtain ⟨m, hm, rfl⟩ := getElem?_modifyKernel hl
    by_cases hij : i = j
    · subst hij
      obtain rfl := Option.some.inj (hk.symm.trans hm)
      rw [if_pos rfl]
      exact (h.kernels i k hk).append_own hscope hfits hf
    · rw [if_neg hij]
      refine (h.kernels j m hm).append_other ?_
      rw [hscope]
      exact fun heq => hij (Scope.kernel.inj heq)
  · intro t ht j hj
    show j < (a.kernels.modify i f).length
    rw [hlen]
    rcases List.mem_append.mp ht with ht | ht
    · exact h.owners t ht j hj
    · rw [List.mem_singleton.mp ht, hscope] at hj
      cases hj
      exact hi
  · intro t ht hkind
    rcases List.mem_append.mp ht with ht | ht
    · exact h.tags t ht hkind
    · rw [List.mem_singleton.mp ht] at hkind ⊢
      exact hfits.plain hkind

/-- A new extra section of the global scope keeps the state consistent. -/
theorem Consistent.newExtra (h : a.Consistent) {s : TableSection} (hscope : s.scope = .global)
    (hkind : s.kind = .extra) (hfits : s.Fits a.extras) :
    ((a.newSection s).1.addExtra .global s.name a.sections.length).Consistent := by
  refine {
    current := h.current.append
    saved := h.saved.append
    kernels := ?_
    extras := h.extras.append_extra hscope hkind hfits
    extraCount := ?_
    globals := ?_
    owners := ?_
    tags := ?_
    names := h.names
    homes := h.homes_append s
    contents := Nat.le_trans h.contents (by simp [newSection, addExtra])
    configs := h.configs_append s
    output := h.output }
  · intro i k hk
    refine (h.kernels i k hk).append_other ?_
    rw [hscope]
    exact fun heq => by cases heq
  · show a.extraCount + 1 = UInt32.ofNat (a.extras ++ [(s.name, a.sections.length)]).length
    rw [h.extraCount, List.length_append, List.length_singleton, UInt32.ofNat_add]
    rfl
  · intro kind hne
    show idsOf (a.sections ++ [s]) .global kind = _
    rw [idsOf_append, if_neg, List.append_nil]
    · exact h.globals kind hne
    · rintro ⟨-, rfl⟩
      exact hne hkind
  · intro t ht i hi
    rcases List.mem_append.mp ht with ht | ht
    · exact h.owners t ht i hi
    · rw [List.mem_singleton.mp ht, hscope] at hi
      cases hi
  · intro t ht hne
    rcases List.mem_append.mp ht with ht | ht
    · exact h.tags t ht hne
    · rw [List.mem_singleton.mp ht] at hne
      exact absurd hkind hne

theorem kernelList_modifyOutput (a : Assembler) (k : Nat) (f : Kernel → Kernel) :
    (a.modifyOutput k f).output.kernelList = a.output.kernelList.modify k f :=
  a.output.kernelList_modify k f

/-- Changing a kernel of the model keeps the state consistent. -/
theorem Consistent.modifyOutput (h : a.Consistent) (k : Nat) (f : Kernel → Kernel) :
    (a.modifyOutput k f).Consistent := by
  refine { h with output := ?_ }
  rw [kernelList_modifyOutput, List.length_modify]
  exact h.output

/-- A configuration is a section that is remembered. -/
theorem KernelState.remembers_config {k : KernelState} (hk : k.config = none) (i id : Nat) :
    k.Remembers { k with config := some id } { scope := .kernel i, kind := .config } id :=
  ⟨fun kind => by cases kind <;> simp [KernelState.ids, hk], by simp, by simp, rfl⟩

/-- A new configuration, for a kernel that had none, keeps the state consistent. -/
theorem Consistent.withConfig (h : a.Consistent) {i : Nat} {k : KernelState}
    (hk : a.kernels[i]? = some k) (hconfig : k.config = none) : (a.withConfig i).Consistent := by
  refine Consistent.modifyOutput (h.newOwn hk rfl ⟨fun _ => rfl, ?_, ?_, fun _ => rfl, ?_⟩ ?_) i _
  · exact fun hkind => by cases hkind
  · exact fun hkind => by cases hkind
  · exact fun hkind => by cases hkind
  · exact KernelState.remembers_config hconfig i _

/-- **Growing** keeps the state consistent, whichever section is new. -/
theorem Consistent.grown {scope : Scope} (h : a.Consistent) (hab : Grown scope a b) :
    b.Consistent := by
  cases hab with
  | same => exact h
  | kernel name => exact h.withKernel name
  | own _ hk hscope hfits hf => exact h.newOwn hk hscope hfits hf
  | config _ hk hconfig => exact h.withConfig hk hconfig
  | extra hscope hkind hfits => exact h.newExtra hscope hkind hfits

/-! ## Data -/

/-- The contents reach as far as the section that was written to. -/
theorem length_appendTo (contents : List Bytes) (id : Nat) (b : Bytes) :
    (appendTo contents id b).length = max contents.length (id + 1) := by
  rw [appendTo, List.length_modify, List.length_append, List.length_replicate]
  omega

/-- Bytes are put behind those of their section; all others stay as they are. -/
theorem getD_appendTo (contents : List Bytes) (id j : Nat) (b : Bytes) :
    (appendTo contents id b).getD j [] = contents.getD j [] ++ if id = j then b else [] := by
  have hpad : (contents ++ List.replicate (id + 1 - contents.length) []).getD j []
      = contents.getD j [] := by
    simp only [List.getD_eq_getElem?_getD]
    rcases Nat.lt_or_ge j contents.length with hlt | hge
    · rw [List.getElem?_append_left hlt]
    · rw [List.getElem?_append_right hge, List.getElem?_eq_none hge, List.getElem?_replicate]
      split <;> rfl
  rw [appendTo, List.getD_eq_getElem?_getD, List.getElem?_modify]
  rw [List.getD_eq_getElem?_getD] at hpad
  by_cases hij : id = j
  · subst hij
    have hlt : id < (contents ++ List.replicate (id + 1 - contents.length) []).length := by
      rw [List.length_append, List.length_replicate]
      omega
    rw [← hpad, List.getElem?_eq_getElem hlt]
    simp
  · rw [← hpad]
    simp [hij]

/-- **Filling in** keeps the state consistent. -/
theorem Consistent.filled (h : a.Consistent) (hab : Filled a b) : b.Consistent := by
  cases hab with
  | same => exact h
  | @put s bytes hs hkind =>
    have hcurrent := h.current.lt
    refine { h with contents := ?_, configs := ?_ }
    · show (appendTo a.contents a.current bytes).length ≤ a.sections.length
      rw [length_appendTo]
      have := h.contents
      omega
    · intro id t ht hconfig
      show (appendTo a.contents a.current bytes).getD id [] = []
      rw [getD_appendTo, if_neg, List.append_nil]
      · exact h.configs id t ht hconfig
      · rintro rfl
        obtain rfl := Option.some.inj (hs.symm.trans ht)
        exact hkind hconfig
  | @define name span v _ _ hhome =>
    refine { h with homes := ?_ }
    intro s hs id hid
    change s ∈ Symbol.update a.symbols name span (·.define v span) at hs
    rcases Symbol.mem_update hs with hs | ⟨t, -, -, rfl⟩
    · exact h.homes s hs id hid
    · change (if v.relative = true then some v.home.toNat else none) = some id at hid
      split at hid
      · rename_i hrelative
        cases hid
        exact hhome hrelative
      · cases hid
  | @mark f names hkeeps _ =>
    refine { h with homes := ?_ }
    refine List.foldlRecOn (motive := fun l : List Symbol =>
      ∀ s ∈ l, ∀ id, s.home = some id → id < a.sections.length) names _ h.homes ?_
    intro l hl n _ s hs id hid
    rcases Symbol.mem_update hs with hs | ⟨t, ht | rfl, -, rfl⟩
    · exact hl s hs id hid
    · rw [(hkeeps t).2.2.2] at hid
      exact hl t ht id hid
    · rw [(hkeeps _).2.2.2] at hid
      cases hid
  | target => exact { h with }
  | texts => exact { h with }
  | configure => exact h.modifyOutput _ _
  | use => exact h.modifyOutput _ _
  | named _ hnames => exact { h with names := hnames }

/-- **A step keeps the bookkeeping consistent.** -/
theorem Consistent.step {scope : Scope} (h : a.Consistent) (hab : StepIn scope a b) :
    b.Consistent := by
  obtain ⟨d, ⟨c, hgrown, hmoved⟩, hfilled, -⟩ := hab
  exact ((h.grown hgrown).moved hmoved).filled hfilled

end

end Assembler

end CatalystAsm
