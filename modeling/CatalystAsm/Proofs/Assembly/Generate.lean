import CatalystAsm.Proofs.Assembly.Mode
import CatalystAsm.Proofs.Assembly.Placement
import CatalystAsm.Proofs.Container.Refusal

/-!
# Models of sources can be generated

The checks on the way from an assembly to its binary were settled while the source was read: symbols
belong to sections of the table, tags are those of sections that exist, and user data is limited
where it is added. So the completed model is mapped and has room for its user data, and the only
thing left to refuse is a configured kernel for a device that metadata cannot name.
-/

namespace CatalystAsm

/-! ## Tags -/

/-- Outside kernels the tags of extra sections have numbers, and so have the two fixed ones. -/
theorem Model.isSome_sectionIndex? {n : Nat} {tag : SectionTag}
    (h : tag = .null ∨ tag = .absolute ∨ tag.id.toNat < n) :
    (sectionIndex? n tag).isSome = true := by
  rcases h with rfl | rfl | hlt
  · rfl
  · rfl
  · unfold sectionIndex?
    split_ifs
    all_goals rfl

/-- In a kernel the null tag and those of code, data and extra sections have numbers. -/
theorem Kernel.isSome_sectionIndex? {n : Nat} {tag : SectionTag}
    (h : tag = .null ∨ (tag = .text ∨ tag = .data) ∨ tag.id.toNat < n) :
    (sectionIndex? n tag).isSome = true := by
  rcases h with rfl | (rfl | rfl) | hlt
  · rfl
  · rfl
  · rfl
  · unfold sectionIndex?
    split_ifs
    all_goals rfl

/-- Of the sections that are not extra ones, only code and data of kernels have a tag. -/
theorem plainTag_of_ne {scope : Scope} {kind : SectionKind} (h : plainTag scope kind ≠ .unmapped) :
    ∃ k, scope = .kernel k ∧ (plainTag scope kind = .text ∨ plainTag scope kind = .data) := by
  cases scope with
  | global => exact absurd rfl h
  | kernel k =>
    refine ⟨k, rfl, ?_⟩
    cases kind with
    | code => exact .inl rfl
    | data => exact .inr rfl
    | _ => exact absurd rfl h

namespace Assembler

variable {a : Assembler}

/-- Where a symbol goes: as an absolute value, or under the tag of a section of its scope. -/
theorem Consistent.tag_of_symbolHome? (h : a.Consistent) {s : Symbol} {scope : Scope}
    {tag : SectionTag} (hs : a.symbolHome? s = some (scope, tag)) :
    (scope = .global ∧ tag = .absolute) ∨
      (∃ k, scope = .kernel k ∧ (tag = .text ∨ tag = .data)) ∨
      tag.id.toNat < (entriesOf a.sections scope .extra).length := by
  unfold symbolHome? at hs
  cases hhome : s.home with
  | none =>
    rw [hhome] at hs
    cases hs
    exact .inl ⟨rfl, rfl⟩
  | some id =>
    rw [hhome] at hs
    dsimp only at hs
    cases ht : a.sections[id]? with
    | none =>
      rw [ht] at hs
      cases hs
    | some t =>
      rw [ht] at hs
      dsimp only at hs
      split at hs
      · cases hs
      · rename_i hmapped
        cases hs
        by_cases hkind : t.kind = .extra
        · obtain ⟨i, hi, htag⟩ := h.exists_rank ht hkind
          have hlt := (List.getElem?_eq_some_iff.mp hi).1
          rw [htag]
          exact .inr (.inr (toNat_ofNat_lt hlt))
        · have htag := h.tags t (List.mem_of_getElem? ht) hkind
          rw [htag] at hmapped ⊢
          exact .inr (.inl (plainTag_of_ne hmapped))

/-- The tag of an exported symbol. -/
theorem exists_of_mem_exports {scope : Scope} {e : ExtraSymbol}
    (he : e ∈ a.exported.filterMap (a.exportTo? scope)) :
    ∃ s, a.symbolHome? s = some (scope, e.home) := by
  obtain ⟨s, -, hs⟩ := List.mem_filterMap.mp he
  refine ⟨s, ?_⟩
  unfold exportTo? at hs
  split at hs
  · cases hs
  · rename_i t home hhome
    split at hs
    · rename_i hscope
      subst hscope
      cases hs
      exact hhome
    · cases hs

/-- The extra sections that an assembly makes are not linked. -/
theorem link_of_mem_extras {entries : List (TableSection × Nat)} {s : ExtraSection}
    (hs : s ∈ entries.map fun e => extraSection e.1 (a.content e.2)) : s.link = .null := by
  obtain ⟨e, -, rfl⟩ := List.mem_map.mp hs
  rfl

/-! ## Completed models -/

/-- Every tag of a completed kernel has a number. -/
theorem Reachable.mapped_kernel (h : Reachable a) {k : Nat} {kernel : Kernel}
    (hkernel : a.prepare.1.output.kernelList[k]? = some kernel) : kernel.Mapped := by
  have hlt : k < a.kernels.length := by
    rw [← h.length_kernels_prepare]
    exact (List.getElem?_eq_some_iff.mp hkernel).1
  obtain ⟨-, -, -, -, -, hsections, hsymbols⟩ :=
    h.kernel_prepare (List.getElem?_eq_getElem hlt) hkernel
  constructor
  · intro e he
    rw [hsymbols] at he
    obtain ⟨s, hs⟩ := exists_of_mem_exports he
    apply Kernel.isSome_sectionIndex?
    rw [hsections, List.length_map]
    rcases h.consistent.tag_of_symbolHome? hs with ⟨hscope, -⟩ | ⟨-, -, htag⟩ | htag
    · cases hscope
    · exact .inr (.inl htag)
    · exact .inr (.inr htag)
  · intro s hs
    refine Kernel.isSome_sectionIndex? (.inl ?_)
    rw [hsections] at hs
    exact link_of_mem_extras hs

/-- **The sections that a completed model names are in its binary.** -/
theorem Reachable.mapped (h : Reachable a) : a.prepare.1.output.Mapped := by
  refine ⟨?_, ?_, ?_⟩
  · intro e he
    rw [h.symbols_prepare] at he
    obtain ⟨s, hs⟩ := exists_of_mem_exports he
    apply Model.isSome_sectionIndex?
    rw [h.sections_prepare, List.length_map]
    rcases h.consistent.tag_of_symbolHome? hs with ⟨-, htag⟩ | ⟨_, hscope, -⟩ | htag
    · exact .inr (.inl htag)
    · cases hscope
    · exact .inr (.inr htag)
  · intro s hs
    refine Model.isSome_sectionIndex? (.inl ?_)
    rw [h.sections_prepare] at hs
    exact link_of_mem_extras hs
  · intro kernel hkernel
    obtain ⟨k, hk⟩ := List.getElem?_of_mem hkernel
    exact h.mapped_kernel hk

/-- The kernels of a completed model have room for their user data. -/
theorem Reachable.fitsUserData (h : Reachable a) : a.prepare.1.output.FitsUserData := by
  intro kernel hkernel _
  obtain ⟨k, hk⟩ := List.getElem?_of_mem hkernel
  obtain ⟨start, symbols, hstart, rfl⟩ := exists_of_kernel_prepare hk
  obtain ⟨state, hstate⟩ := h.consistent.exists_state hstart
  show (a.kernelWith k start).config.userDataList.length ≤ maxUserData
  rw [(a.sameConfig_kernelWith k start).2.1]
  exact (h.described k state start hstate hstart).userData

theorem device_prepare (a : Assembler) : a.prepare.1.output.device = a.options.device := by
  have hsections : a.withSections.output.device = a.options.device := by
    refine List.foldlRecOn (motive := fun b : Assembler => b.output.device = a.options.device)
      _ _ rfl ?_
    intro b hb e _
    rw [← hb]
    unfold placeSection placeInModel
    cases e.1.scope with
    | global => cases e.1.kind <;> rfl
    | kernel k => rfl
  rw [output_prepare]
  refine List.foldlRecOn (motive := fun m : Model => m.device = a.options.device) _ _ hsections ?_
  intro m hm s _
  rw [← hm]
  unfold Model.addSymbol
  split <;> rfl

/-- A consistent assembly can be completed: its symbols belong to sections of the table. -/
theorem Consistent.completed_eq (h : a.Consistent) : a.completed = .ok a.prepare.1.output := by
  have hnone : a.exported.findSome? a.homeError? = none := by
    rw [List.findSome?_eq_none_iff]
    intro s hs
    unfold homeError?
    cases hhome : s.home with
    | none => rfl
    | some id => exact if_pos (h.homes s (mem_symbols_of_mem_exported hs) id hhome)
  rw [completed, hnone]

end Assembler

open Assembler

/-- **Sources that are assembled are also generated.** Whatever the source and the options, the
model is completed without an error. It is refused, when it is validated, planned or generated,
exactly when a kernel has a configuration and the device of the assembly comes after the last one
that metadata can name. Otherwise it is planned, unless a string table does not fit offsets of 32
bits: no symbol refers to an unknown section, no kernel has too much user data, and no named section
is missing. -/
theorem Assembly.completed_model_generates (options : Options) (f : SourceFile)
    (cancelled : Option Nat) :
    let a := (ofFile options f cancelled).state
    ∃ m, a.completed = .ok m ∧
      let refused :=
        (∃ k ∈ m.kernelList, k.useConfig = true) ∧ Device.mullins.id < a.options.device.id
      ((∃ e, m.validate = .error e) ↔ refused) ∧
      ((∃ e, m.plan = .error e ∧ e.isOverflow = false) ↔ refused) ∧
      ((∃ e, m.generate = .error e ∧ e.isOverflow = false) ↔ refused) ∧
      (∀ e, m.validate = .error e → e = .unsupportedDevice a.options.device) ∧
      ∀ e, m.plan = .error e → refused ∧ e = .unsupportedDevice a.options.device ∨
        ¬refused ∧ e = .overflow .stringTable ∧ ∃ t ∈ m.stringTables, UInt32.size < t.length := by
  intro a
  have ha : Reachable a := reachable_ofFile options f cancelled
  refine ⟨_, ha.consistent.completed_eq, ?_⟩
  have hmapped := ha.mapped
  have hdata := ha.fitsUserData
  rw [← device_prepare a]
  refine ⟨?_, hmapped.plan_refused_iff hdata, ?_, ?_, ?_⟩
  · constructor
    · rintro ⟨e, he⟩
      exact ((Model.validate_eq_error_iff hdata).mp he).1
    · intro hrefused
      exact ⟨_, (Model.validate_eq_error_iff hdata).mpr ⟨hrefused, rfl⟩⟩
  · -- overflows aside, generating fails just where planning does
    refine Iff.trans ?_ (hmapped.plan_refused_iff hdata)
    exact exists_congr fun e => and_congr_left fun he => Model.generate_eq_error_iff he
  · intro e he
    exact ((Model.validate_eq_error_iff hdata).mp he).2
  · intro e he
    exact (hmapped.ends_plan hdata).of_eq_error he

/-- The same source is planned for the last device that metadata can name, and refused for the next
one. -/
example :
    let planned (device : Device) : Bool :=
      (Assembly.ofFile { device } configAndNotes none).state.prepare.1.output.plan.isOk
    planned .mullins = true ∧ planned ⟨14⟩ = false := by decide +kernel

end CatalystAsm
