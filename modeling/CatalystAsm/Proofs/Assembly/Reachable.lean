import CatalystAsm.Proofs.Assembly.Clause

/-!
# Reachable states

The states that statements, single clauses and direct operations on sections and kernels lead to.
The bookkeeping of each of them is consistent, and whatever is refused there changes nothing.
-/

namespace CatalystAsm.Assembler

/-- The states that an assembly can be in. -/
inductive Reachable : Assembler → Prop
  | start (options : Options) : Reachable (ofOptions options)
  | clause {a : Assembler} (x : Clause) : Reachable a → Reachable (a.settle (a.perform x)).1
  | statement {a : Assembler} (c : Cursor) : Reachable a → Reachable (a.statement c).1
  | addKernel {a : Assembler} (name : Bytes) : Reachable a → Reachable (a.addKernel name).1
  | addSection {a : Assembler} (name : Bytes) (scope : Scope) :
    Reachable a → Reachable (a.tryAddSection name scope).state
  | setKernel {a : Assembler} (scope : Scope) : Reachable a → Reachable (a.trySetKernel scope).state
  | setSection {a : Assembler} (id : Nat) : Reachable a → Reachable (a.trySetSection id).state

variable {a : Assembler}

/-- An operation that settles makes a step or leaves the state alone. -/
theorem Attempt.Settles.step {α : Type} {t : Attempt α} {scope : Scope}
    (h : t.Settles a (Entered scope a)) : StepIn scope a t.state := by
  cases hanswer : t.answer with
  | error e =>
    rw [h.refused e hanswer]
    exact Moved.same.entered.step
  | ok v => exact (h.accepted v hanswer).step

/-- What holds at the start and is kept by every step between consistent states holds of every
reachable state, and every reachable state is consistent. -/
theorem Reachable.invariant {P : Assembler → Prop} (hstart : ∀ options, P (ofOptions options))
    (hstep : ∀ {scope} b c, b.Consistent → P b → StepIn scope b c → P c) (h : Reachable a) :
    a.Consistent ∧ P a := by
  have hnext {b c : Assembler} (scope : Scope) (hbc : StepIn scope b c)
      (hb : b.Consistent ∧ P b) : c.Consistent ∧ P c :=
    ⟨hb.1.step hbc, hstep b c hb.1 hb.2 hbc⟩
  induction h with
  | start options => exact ⟨consistent_ofOptions options, hstart options⟩
  | clause x _ ih => exact hnext _ (ih.1.step_after x) ih
  | @statement a c _ ih =>
    rw [(statement_eq a c).1]
    exact ih.1.afterAll_induction ih.2 (fun b c => hstep b c) _
  | @addKernel a name _ ih =>
    rw [addKernel_eq]
    exact hnext .global (Grown.entered (.kernel name) rfl rfl).step ih
  | @addSection a name scope _ ih =>
    exact hnext scope (Attempt.Settles.step (ih.1.settles_tryAddSection name scope)) ih
  | @setKernel a scope _ ih =>
    have hsettles := (ih.1.settles_trySetKernel scope).mono (Q := Entered a.scope a)
      fun _ => Moved.entered
    exact hnext _ (Attempt.Settles.step hsettles) ih
  | @setSection a id _ ih =>
    have hsettles := (settles_trySetSection a id).mono (Q := Entered a.scope a)
      fun _ => Moved.entered
    exact hnext _ (Attempt.Settles.step hsettles) ih

/-- **The bookkeeping of a reachable state is consistent.** -/
theorem Reachable.consistent (h : Reachable a) : a.Consistent :=
  (h.invariant (P := fun _ => True) (fun _ => trivial) fun _ _ _ _ _ => trivial).1

theorem Reachable.statements (h : Reachable a) (l : List Cursor) :
    Reachable (a.statements l).1 := by
  induction l generalizing a with
  | nil => exact h
  | cons c l ih => exact ih (h.statement c)

/-- Assembling a source leads to a reachable state. -/
theorem reachable_ofFile (options : Options) (f : SourceFile) (cancelled : Option Nat) :
    Reachable (Assembly.ofFile options f cancelled).state := (Reachable.start options).statements _

/-! ## Errors -/

/-- **An error changes nothing.** A clause that reports an error leaves the whole state as it was,
and so does an operation on sections and kernels that is refused. -/
theorem errors_change_nothing (h : Reachable a) :
    (∀ x : Clause, (∃ d ∈ (a.perform x).reports, d.severity = .error) →
      (a.settle (a.perform x)).1 = a) ∧
    (∀ name scope e, (a.tryAddSection name scope).answer = .error e →
      (a.tryAddSection name scope).state = a) ∧
    (∀ scope e, (a.trySetKernel scope).answer = .error e → (a.trySetKernel scope).state = a) ∧
    ∀ id e, (a.trySetSection id).answer = .error e → (a.trySetSection id).state = a := by
  have hconsistent := h.consistent
  refine ⟨?_, ?_, ?_, ?_⟩
  · intro x herror
    exact (hconsistent.settles_perform x).getD_eq herror
  · intro name scope
    exact (hconsistent.settles_tryAddSection name scope).refused
  · intro scope
    exact (hconsistent.settles_trySetKernel scope).refused
  · intro id
    exact (settles_trySetSection a id).refused

/-- A label `x` at a place of the first file. -/
def labelX (place : UInt32) : Clause :=
  .label [0x78] (by intro b hb; rw [List.mem_singleton.mp hb]; rfl) (.point 0 place)

/-- A second label of a name is refused, and so is a code section outside kernels. -/
theorem second_label_changes_nothing :
    let a := ((ofOptions {}).settle ((ofOptions {}).perform (labelX 0))).1
    a.symbols.length = 1 ∧ (a.settle (a.perform (labelX 2))).1 = a ∧
      (a.tryAddSection codeName .global).state = a := by
  intro a
  obtain ⟨hclause, hsection, -, -⟩ := errors_change_nothing (.clause (labelX 0) (.start {}))
  refine ⟨by decide, hclause (labelX 2) ?_, hsection codeName .global (.onlyInKernels codeName) ?_⟩
  · exact ⟨_, List.mem_singleton_self _, rfl⟩
  · rfl

/-! ## Tables -/

theorem Consistent.extrasOf? (h : a.Consistent) {scope : Scope} {extras : List (Bytes × Nat)}
    (hextras : a.extrasOf? scope = some extras) : ListsExtras a.sections scope extras := by
  cases scope with
  | global =>
    cases hextras
    exact h.extras
  | kernel k =>
    obtain ⟨state, hk, rfl⟩ := Option.map_eq_some_iff.mp hextras
    exact (h.kernels k state hk).extras

/-- The scope of a section of the table is outside kernels or a kernel that exists, also in the
model. -/
theorem Consistent.exists_kernel (h : a.Consistent) {id k : Nat}
    (hid : Owns a.sections (.kernel k) id) :
    (∃ state, a.kernels[k]? = some state) ∧ ∃ kernel, a.output.kernelList[k]? = some kernel := by
  obtain ⟨s, hs, hscope⟩ := hid
  have hlt := h.owners s (List.mem_of_getElem? hs) k hscope
  exact ⟨⟨_, List.getElem?_eq_getElem hlt⟩, _, List.getElem?_eq_getElem (h.output ▸ hlt)⟩

/-- **The tables of sections and kernels agree.** The assembly stands in a section of its kernel;
sections belong to kernels that exist; each kernel remembers the one section of each kind that it
has, and its notes in order; the extra sections of a scope are numbered in order, have different
names and are remembered by name; no configuration holds bytes; and every number that is looked up
is in its table. -/
theorem tables_agree (h : Reachable a) :
    Owns a.sections a.scope a.current ∧
    (∀ s ∈ a.sections, s.scope = .global ∨ ∃ k < a.kernels.length, s.scope = .kernel k) ∧
    a.output.kernelList.length = a.kernels.length ∧
    (∀ k state, a.kernels[k]? = some state →
      idsOf a.sections (.kernel k) .code = [state.code] ∧
      idsOf a.sections (.kernel k) .data = state.data.toList ∧
      idsOf a.sections (.kernel k) .config = state.config.toList ∧
      idsOf a.sections (.kernel k) .header = state.header.toList ∧
      idsOf a.sections (.kernel k) .metadata = state.metadata.toList ∧
      idsOf a.sections (.kernel k) .note = state.notes ∧ state.notes.Pairwise (· < ·) ∧
      Owns a.sections (.kernel k) state.saved) ∧
    (∀ scope extras, a.extrasOf? scope = some extras →
      (entriesOf a.sections scope .extra).map (fun e => (e.1.name, e.2)) = extras ∧
      (entriesOf a.sections scope .extra).map (·.1.tag)
        = (List.range extras.length).map (fun b => ⟨UInt32.ofNat b⟩) ∧
      (extras.map (·.1)).Nodup) ∧
    Owns a.sections .global a.saved ∧ idsOf a.sections .global .data = [globalData] ∧
    (∀ id s, a.sections[id]? = some s → s.kind = .config → a.content id = []) ∧
    (∀ e ∈ a.kernelNames, e.2 < a.kernels.length) ∧
    (∀ s ∈ a.symbols, ∀ id, s.home = some id → id < a.sections.length) ∧
    ∀ k id, Owns a.sections (.kernel k) id →
      (∃ state, a.kernels[k]? = some state) ∧ ∃ kernel, a.output.kernelList[k]? = some kernel := by
  have hconsistent := h.consistent
  refine ⟨hconsistent.current, ?_, hconsistent.output, ?_, ?_, hconsistent.saved,
    hconsistent.globals .data (by decide), hconsistent.configs, hconsistent.names,
    hconsistent.homes, fun k id => hconsistent.exists_kernel⟩
  · intro s hs
    cases hscope : s.scope with
    | global => exact .inl rfl
    | kernel k => exact .inr ⟨k, hconsistent.owners s hs k hscope, rfl⟩
  · intro k state hk
    have hlists := hconsistent.kernels k state hk
    have hnotes : state.notes.Pairwise (· < ·) := by
      have hpairwise := pairwise_idsOf a.sections (.kernel k) .note
      rw [hlists.ids .note] at hpairwise
      exact hpairwise
    exact ⟨hlists.ids .code, hlists.ids .data, hlists.ids .config, hlists.ids .header,
      hlists.ids .metadata, hlists.ids .note, hnotes, hlists.saved⟩
  · intro scope extras hextras
    have hlists := hconsistent.extrasOf? hextras
    exact ⟨hlists.entries, hlists.tags, hlists.nodup⟩

/-- A kernel with two extra sections after its code. -/
theorem tables_agree_two_extras :
    let a := ((((ofOptions {}).addKernel [0x6b]).1.tryAddSection [0x61]
      (.kernel 0)).state.tryAddSection [0x62] (.kernel 0)).state
    (a.sections.length, a.current, a.scope) = (4, 3, .kernel 0) ∧
      idsOf a.sections (.kernel 0) .code = [1] ∧
      (entriesOf a.sections (.kernel 0) .extra).map (fun e => (e.1.name, e.2))
        = [([0x61], 2), ([0x62], 3)] := by
  intro a
  have hreachable : Reachable a :=
    .addSection [0x62] (.kernel 0) (.addSection [0x61] (.kernel 0) (.addKernel [0x6b] (.start {})))
  obtain ⟨-, -, -, hkernels, hextras, -⟩ := tables_agree hreachable
  exact ⟨by decide, (hkernels 0 _ rfl).1, (hextras (.kernel 0) _ rfl).1⟩

end CatalystAsm.Assembler
