import CatalystAsm.Proofs.Assembly.Outcome
import CatalystAsm.Proofs.Assembly.Step
import Mathlib.Data.List.TakeWhile

/-!
# Operations on the state

What the operations on sections, kernels, data and symbols do to a consistent state, as stages of a
step. An operation that is refused leaves the state as it was.
-/

namespace CatalystAsm

/-! ## Names -/

/-- What is scanned as a name is a name. -/
theorem isName_of_name? {c d : Cursor} {n : Bytes} (h : Statement.name? c = some (n, d)) :
    IsName n := by
  unfold Statement.name? at h
  split at h
  · cases h
  · split at h
    · cases h
      intro x hx
      unfold Cursor.sliceTo Cursor.skipWhile Cursor.advance at hx
      dsimp only at hx
      rw [Nat.add_sub_cancel_left,
        ← List.prefix_iff_eq_take.mp (List.takeWhile_prefix Statement.isNameByte)] at hx
      exact List.mem_takeWhile_imp hx
    · cases h

/-- A name that an argument asks for is a name. -/
theorem isName_of_expectName {what : Bytes} {c d : Cursor} {n : Bytes × Span}
    (h : Statement.expectName what c = .ok (n, d)) : IsName n.1 := by
  unfold Statement.expectName at h
  dsimp only at h
  split at h
  · cases h
  · rename_i hname
    cases h
    exact isName_of_name? hname

/-- The name that a reader gives is a name. -/
theorem ArgReader.gives_name (what : String) : (name what).Gives fun n => IsName n.1 := by
  refine (gives_scan _).mono ?_
  rintro n ⟨c, d, hread⟩
  exact isName_of_expectName hread

/-! ## Operations on sections and kernels -/

/-- An operation that leaves the state alone when it is refused, and otherwise leads to a state that
satisfies `P`. -/
structure Attempt.Settles {α : Type} (t : Attempt α) (a : Assembler) (P : Assembler → Prop) :
    Prop where
  refused : ∀ e, t.answer = .error e → t.state = a
  accepted : ∀ v, t.answer = .ok v → P t.state

/-- An operation that fails on the state as it was leaves it. -/
theorem Attempt.settles_error {α : Type} {a : Assembler} {P : Assembler → Prop}
    (e : StructureError) : (⟨a, .error e⟩ : Attempt α).Settles a P :=
  ⟨fun _ _ => rfl, fun v hv => by cases hv⟩

/-- An operation that succeeds leaves what it made. -/
theorem Attempt.settles_ok {α : Type} {a b : Assembler} {P : Assembler → Prop} (h : P b) (v : α) :
    (⟨b, .ok v⟩ : Attempt α).Settles a P :=
  ⟨fun e he => (by cases he), fun _ _ => h⟩

theorem Attempt.Settles.mono {α : Type} {t : Attempt α} {a : Assembler} {P Q : Assembler → Prop}
    (h : t.Settles a P) (hPQ : ∀ b, P b → Q b) : t.Settles a Q :=
  ⟨h.refused, fun v hv => hPQ _ (h.accepted v hv)⟩

/-- The outcome of a refused operation has the old state, that of an accepted one the new state. -/
theorem Attempt.Settles.outcome {α : Type} {t : Attempt α} {a : Assembler}
    {P : Assembler → Prop} (h : t.Settles a P) (place : Span) :
    (t.outcome place).Settles a P := by
  intro b hb
  unfold Attempt.outcome at hb ⊢
  cases ht : t.answer with
  | error e =>
    rw [ht] at hb
    cases hb
    exact .inl (h.refused e ht)
  | ok v =>
    rw [ht] at hb
    cases hb
    exact .inr ⟨h.accepted v ht, noError_nil⟩

/-- Whatever kind a section of a kernel has, it is the kernel's own. -/
theorem KernelState.Lists.owns {k : KernelState} {sections : List TableSection} {i id : Nat}
    (h : k.Lists sections i) (kind : SectionKind) (hid : id ∈ k.ids kind) :
    Owns sections (.kernel i) id := by
  rw [← h.ids kind] at hid
  obtain ⟨s, hs, hscope, -⟩ := mem_idsOf.mp hid
  exact ⟨s, hs, hscope⟩

namespace Assembler

variable {a : Assembler}

/-- Going to a section only moves the place of the assembly, or leaves it. -/
theorem settles_trySetSection (a : Assembler) (id : Nat) :
    (a.trySetSection id).Settles a (Moved a) := by
  unfold trySetSection
  split
  · exact Attempt.settles_error _
  · rename_i s hs
    exact Attempt.settles_ok (.move ⟨s, hs, rfl⟩) ()

/-- Going to a kernel or to the global scope only moves the place of the assembly, or leaves it. -/
theorem Consistent.settles_trySetKernel (h : a.Consistent) (scope : Scope) :
    (a.trySetKernel scope).Settles a (Moved a) := by
  have hsections : a.saveSection.sections = a.sections := a.sections_moveTo scope 0
  unfold trySetKernel
  cases scope with
  | global =>
    refine Attempt.settles_ok (.move ?_) ()
    rw [← hsections]
    exact h.saveSection.saved
  | kernel k =>
    dsimp only
    split
    · exact Attempt.settles_error _
    · rename_i state hstate
      refine Attempt.settles_ok (.move ?_) ()
      rw [← hsections]
      exact (h.saveSection.kernels k state hstate).saved

/-- Moving to the section that was just made. -/
theorem Grown.entered {b : Assembler} {s : TableSection} {within scope : Scope}
    (hgrown : Grown within a b) (hsections : b.sections = a.sections ++ [s])
    (hscope : s.scope = scope) : Entered within a (b.moveTo scope a.sections.length) := by
  refine ⟨b, hgrown, .move ?_⟩
  rw [hsections, ← hscope]
  exact owns_length s

/-- The code or data section of a kernel is found or made, and entered. -/
theorem Consistent.textOrDataSection (h : a.Consistent) {k : Nat} {state : KernelState}
    (hk : a.kernels[k]? = some state) {name : Bytes} {kind : SectionKind} {tag : SectionTag}
    (hname : textOrData? name = some (kind, tag)) :
    Entered (.kernel k) a ((a.textOrDataSection k state kind tag name).1.moveTo (.kernel k)
      (a.textOrDataSection k state kind tag name).2) := by
  have hlists := h.kernels k state hk
  unfold textOrData? at hname
  split at hname
  · cases hname
    exact (Moved.move (hlists.owns .code (List.mem_singleton_self _))).entered
  · split at hname
    · rename_i hdataName
      cases hname
      unfold Assembler.textOrDataSection
      cases hdata : state.data with
      | some id =>
        have hid : id ∈ state.ids .data := by
          show id ∈ state.data.toList
          rw [hdata]
          exact List.mem_singleton_self id
        exact (Moved.move (hlists.owns .data hid)).entered
      | none =>
        have hfits : TableSection.Fits { scope := .kernel k, kind := .data, tag := .data, name }
            state.extras :=
          ⟨fun _ => rfl, fun hkind => (by cases hkind), fun hkind => (by cases hkind),
            fun _ => hdataName, fun hkind => by cases hkind⟩
        refine Grown.entered (.own rfl hk rfl hfits ?_ (KernelState.admits_of_plain ?_)) rfl rfl
        · exact ⟨fun kind => by cases kind <;> simp [KernelState.ids, hdata], by simp, by simp, rfl⟩
        · exact .inr (.inl rfl)
    · cases hname

/-- Adding a section enters it in its scope, or changes nothing. -/
theorem Consistent.settles_tryAddSection (h : a.Consistent) (name : Bytes) (scope : Scope) :
    (a.tryAddSection name scope).Settles a (Entered scope a) := by
  unfold tryAddSection
  split
  · rename_i kind tag hname
    cases scope with
    | global => exact Attempt.settles_error _
    | kernel k =>
      dsimp only
      split
      · exact Attempt.settles_error _
      · rename_i state hk
        exact Attempt.settles_ok (h.textOrDataSection hk hname) _
  · rename_i hfree
    split
    · exact Attempt.settles_error _
    · rename_i extras hextras
      split
      · exact Attempt.settles_error _
      · rename_i hfresh
        refine Attempt.settles_ok ?_ _
        have hnew : name ∉ extras.map (·.1) := by
          intro hmem
          obtain ⟨e, he, hname⟩ := List.mem_map.mp hmem
          exact hfresh (List.any_eq_true.mpr ⟨e, he, beq_iff_eq.mpr hname⟩)
        cases scope with
        | global =>
          cases hextras
          exact Grown.entered (.extra rfl rfl
            ⟨fun hkind => absurd rfl hkind, fun _ => congrArg SectionTag.mk h.extraCount,
              fun _ => hnew, fun hkind => absurd rfl hkind, fun _ => hfree⟩) rfl rfl
        | kernel k =>
          obtain ⟨state, hk, rfl⟩ := Option.map_eq_some_iff.mp hextras
          have hcount : a.extraCountOf (.kernel k) = UInt32.ofNat state.extras.length := by
            rw [extraCountOf, hk, Option.map_some, Option.getD_some]
            exact (h.kernels k state hk).extraCount
          refine Grown.entered (.own rfl hk rfl
            ⟨fun hkind => absurd rfl hkind, fun _ => congrArg SectionTag.mk hcount, fun _ => hnew,
              fun hkind => absurd rfl hkind, fun _ => hfree⟩ ?_
            (KernelState.admits_of_plain ?_)) rfl rfl
          · exact ⟨fun kind => by cases kind <;> simp [KernelState.ids], by simp, by simp, rfl⟩
          · exact .inr (.inr rfl)

/-! ## Data and symbols -/

/-- Bytes go to the end of the current section when that takes any. -/
theorem putData_of_writeable {s : TableSection} (hs : a.sections[a.current]? = some s)
    (hkind : s.kind.isWriteable = true) (stmt : Span) (b : Bytes) : a.putData stmt b
      = .done { a with contents := appendTo a.contents a.current b, hasContent := true } := by
  unfold putData section?
  rw [hs]
  exact if_pos hkind

/-- Bytes are put without an error, or not at all. -/
theorem gives_putData (a : Assembler) (stmt : Span) (b : Bytes) :
    (a.putData stmt b).Gives (Filled a) := by
  unfold putData section?
  cases hs : a.sections[a.current]? with
  | none => exact Outcome.gives_fail _ _
  | some s =>
    dsimp only
    split
    · rename_i hwriteable
      refine Outcome.gives_done (.put b hs ?_)
      rintro hkind
      rw [hkind] at hwriteable
      cases hwriteable
    · exact Outcome.gives_fail _ _

/-- A symbol whose section is in the table is defined without an error, or not at all. -/
theorem gives_defineSymbol (a : Assembler) {name : Bytes} (hname : IsName name) (span : Span)
    {v : Value} (hhome : v.HomeIn (·.toNat < a.sections.length)) :
    (a.defineSymbol name span v).Gives (Filled a) := by
  unfold defineSymbol
  dsimp only
  split
  · rename_i s hs
    split
    · exact Outcome.gives_stop _
    · rename_i hundefined
      refine Outcome.gives_done (.define span hname ?_ hhome)
      intro t ht
      obtain rfl := Option.some.inj (hs.symm.trans ht)
      exact Bool.eq_false_iff.mpr hundefined
  · rename_i hnone
    refine Outcome.gives_done (.define span hname ?_ hhome)
    intro t ht
    cases hnone.symm.trans ht

/-- A number of 32 bits is at most the number that it was cut from. -/
theorem toNat_ofNat_lt {n m : Nat} (h : n < m) : (UInt32.ofNat n).toNat < m := by
  rw [UInt32.toNat_ofNat']
  exact Nat.lt_of_le_of_lt (Nat.mod_le n _) h

/-- The place of the assembly is in a section of the table. -/
theorem Consistent.homeIn_here (h : a.Consistent) :
    a.here.HomeIn (·.toNat < a.sections.length) := fun _ => toNat_ofNat_lt h.current.lt

/-- What a name stands for is in a section of the table. -/
theorem Consistent.homeIn_lookup (h : a.Consistent) (n : Bytes) (v : Value)
    (hv : a.lookup n = some v) : v.HomeIn (·.toNat < a.sections.length) := by
  unfold lookup at hv
  split at hv
  · cases hv
    exact h.homeIn_here
  · split at hv
    · rename_i s hs
      split at hv
      · cases hv
        have hmem : s ∈ a.symbols := List.mem_of_find?_eq_some hs
        unfold Symbol.toValue
        split
        · exact Value.homeIn_absolute _
        · rename_i id hid
          exact fun _ => toNat_ofNat_lt (h.homes s hmem id hid)
      · cases hv
    · cases hv

/-- A label is set without an error, or not at all. -/
theorem Consistent.gives_defineLabel (h : a.Consistent) {name : Bytes} (hname : IsName name)
    (span : Span) : (a.defineLabel name span).Gives (Filled a) := by
  unfold defineLabel section?
  cases hs : a.sections[a.current]? with
  | none => exact Outcome.gives_fail _ _
  | some s =>
    dsimp only
    split
    · exact gives_defineSymbol a hname span h.homeIn_here
    · exact Outcome.gives_fail _ _

open ArgReader in
/-- An assignment is a step without an error, or changes nothing. -/
theorem Consistent.settles_assign (h : a.Consistent) {name : Bytes} (hname : IsName name)
    (span : Span) : (a.assign name span).Settles a (Step a) := by
  unfold assign
  refine (gives_scan _).bind_settles fun ⟨v, _⟩ ⟨c, d, hread⟩ => ?_
  have hhome := Statement.of_expression (Value.closed_homeIn _) h.homeIn_lookup hread
  refine gives_finish.bind_settles fun _ _ => ?_
  exact settles_lift ((gives_defineSymbol a hname span hhome).mono fun _ => Filled.step).settles

end Assembler

end CatalystAsm
