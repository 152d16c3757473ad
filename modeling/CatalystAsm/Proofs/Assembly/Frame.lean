import CatalystAsm.Proofs.Assembly.Symbol

/-!
# What a statement leaves alone

A statement adds only where the assembly stands: to the end of the section table, to the bytes of
the current section, and to what is known of the current kernel. `Assembler.OnlyAppends` lists what
stays as it was. It is shown for one step; the labels in front of a clause change nothing but
symbols, so it holds of a whole statement.
-/

namespace CatalystAsm.Assembler

variable {a b c : Assembler} {k : Nat}

/-! ## Kernels -/

/-- A kernel stays as it was, in what is known of it and in the model. -/
structure KeepsKernel (a b : Assembler) (k : Nat) : Prop where
  state : b.kernels[k]? = a.kernels[k]?
  output : b.output.kernelList[k]? = a.output.kernelList[k]?

theorem KeepsKernel.trans (hab : KeepsKernel a b k) (hbc : KeepsKernel b c k) :
    KeepsKernel a c k :=
  ⟨hbc.state.trans hab.state, hbc.output.trans hab.output⟩

theorem keepsKernel_newSection (s : TableSection) : KeepsKernel a (a.newSection s).1 k :=
  ⟨rfl, rfl⟩

/-- Changing one kernel of the model leaves the others. -/
theorem keepsKernel_modifyOutput {i : Nat} (h : i ≠ k) (f : Kernel → Kernel) :
    KeepsKernel a (a.modifyOutput i f) k := by
  refine ⟨rfl, ?_⟩
  rw [kernelList_modifyOutput]
  exact List.getElem?_modify_ne f _ h

theorem keepsKernel_modifyKernel {i : Nat} (h : i ≠ k) (f : KernelState → KernelState) :
    KeepsKernel a (a.modifyKernel i f) k := ⟨List.getElem?_modify_ne f _ h, rfl⟩

/-- Only the current kernel can get a section. -/
theorem Grown.keepsKernel (h : Grown a.scope a b) (ha : a.Consistent) (hk : k < a.kernels.length)
    (hscope : a.scope ≠ .kernel k) : KeepsKernel a b k := by
  have hother {i : Nat} (hi : a.scope = .kernel i) : i ≠ k := by
    rintro rfl
    exact hscope hi
  cases h with
  | same => exact ⟨rfl, rfl⟩
  | kernel name =>
    constructor
    · exact List.getElem?_append_left hk
    · exact List.getElem?_append_left (ha.output ▸ hk)
  | own hi => exact (keepsKernel_newSection _).trans (keepsKernel_modifyKernel (hother hi) _)
  | config hi =>
    refine KeepsKernel.trans ?_ (keepsKernel_modifyOutput (hother hi) _)
    exact (keepsKernel_newSection _).trans (keepsKernel_modifyKernel (hother hi) _)
  | extra => exact ⟨rfl, rfl⟩

/-- Moving changes what is known of the kernel that is left. -/
theorem Moved.keepsKernel (h : Moved a b) (hscope : a.scope ≠ .kernel k) : KeepsKernel a b k := by
  cases h with
  | same => exact ⟨rfl, rfl⟩
  | move =>
    refine ⟨?_, by rw [output_moveTo]⟩
    unfold moveTo saveSection
    cases hleft : a.scope with
    | global => rfl
    | kernel i =>
      have hik : i ≠ k := by
        rintro rfl
        exact hscope hleft
      exact (keepsKernel_modifyKernel hik _).state

/-- What is filled in outside a kernel leaves it. -/
theorem Filled.keepsKernel (h : Filled a b) (hscope : a.scope ≠ .kernel k) : KeepsKernel a b k := by
  have hother {i : Nat} (hi : a.InConfig i) : i ≠ k := by
    rintro rfl
    exact hscope hi.scope
  cases h with
  | configure hi => exact keepsKernel_modifyOutput (hother hi) _
  | use hi => exact keepsKernel_modifyOutput (hother hi) _
  | _ => exact ⟨rfl, rfl⟩

theorem Filled.kernels_eq (h : Filled a b) : b.kernels = a.kernels := by
  cases h <;> rfl

/-- Growing the table moves the assembly nowhere and writes nothing. -/
theorem Grown.place {scope : Scope} (h : Grown scope a b) :
    b.scope = a.scope ∧ b.contents = a.contents := by
  cases h <;> exact ⟨rfl, rfl⟩

/-- A step outside a kernel leaves it, once the kernel is there. -/
theorem Step.keepsKernel (h : Step a b) (ha : a.Consistent) (hk : k < a.kernels.length)
    (hscope : a.scope ≠ .kernel k) : KeepsKernel a b k := by
  obtain ⟨d, ⟨c, hgrown, hmoved⟩, hfilled, -, houtput⟩ := h
  have hc := hgrown.keepsKernel ha hk hscope
  have hd := hmoved.keepsKernel (hgrown.place.1.symm ▸ hscope)
  refine (hc.trans hd).trans ?_
  -- the model changes only while the assembly is still in its kernel
  rcases houtput with houtput | houtput
  · exact ⟨by rw [hfilled.kernels_eq], by rw [houtput]⟩
  · exact hfilled.keepsKernel (houtput ▸ hscope)

/-! ## Bytes -/

/-- Moving writes nothing. -/
theorem Moved.contents_eq (h : Moved a b) : b.contents = a.contents := by
  cases h with
  | same => rfl
  | move => exact contents_moveTo ..

/-- What is filled in leaves every section but the current one. -/
theorem Filled.content_eq (h : Filled a b) {id : Nat} (hid : a.current ≠ id) :
    b.content id = a.content id := by
  cases h with
  | put bytes =>
    show (appendTo a.contents a.current bytes).getD id [] = a.contents.getD id []
    rw [getD_appendTo, if_neg hid, List.append_nil]
  | _ => rfl

/-- Bytes go into the current section or into a new one. -/
theorem Step.content_eq (h : Step a b) {id : Nat} (hlt : id < a.sections.length)
    (hid : a.current ≠ id) : b.content id = a.content id := by
  obtain ⟨d, ⟨c, hgrown, hmoved⟩, hfilled, hcontents, -⟩ := h
  have hsame : d.content id = a.content id :=
    congrArg (·.getD id []) (hmoved.contents_eq.trans hgrown.place.2)
  rw [← hsame]
  rcases hcontents with hcontents | hcurrent | hcurrent
  · exact congrArg (·.getD id []) hcontents
  · exact hfilled.content_eq (hcurrent ▸ hid)
  · exact hfilled.content_eq (by omega)

/-! ## Statements -/

/-- The second state differs from the first one only by what is added where the first one stands:
the sections of the table stay, bytes are added to the current section alone, other kernels stay,
and what is defined stays defined. -/
structure OnlyAppends (a b : Assembler) : Prop where
  sections : a.sections <+: b.sections
  others : ∀ id < a.sections.length, a.current ≠ id → b.content id = a.content id
  current : a.content a.current <+: b.content a.current
  kernels : ∀ k < a.kernels.length, a.scope ≠ .kernel k → KeepsKernel a b k
  definitions : KeepsDefinitions a b

theorem OnlyAppends.refl (a : Assembler) : OnlyAppends a a where
  sections := List.prefix_rfl
  others _ _ _ := rfl
  current := List.prefix_rfl
  kernels _ _ _ := ⟨rfl, rfl⟩
  definitions := keepsDefinitions_of_symbols rfl

/-- **A step only adds** where the assembly stands. -/
theorem Step.onlyAppends (h : Step a b) (ha : a.Consistent) : OnlyAppends a b where
  sections := h.extends.sections
  others _ := h.content_eq
  current := h.extends.contents _
  kernels _ := h.keepsKernel ha
  definitions := h.extends.definitions

/-- A label changes nothing but symbols. -/
theorem after_label (a : Assembler) (name : Bytes) (isName : IsName name) (span : Span) :
    ∃ symbols, a.after (.label name isName span) = { a with symbols := symbols } := by
  unfold after
  cases hvalue : (a.perform (.label name isName span)).value with
  | none => exact ⟨a.symbols, rfl⟩
  | some b =>
    change (a.defineLabel name span).value = some b at hvalue
    unfold defineLabel defineSymbol at hvalue
    split at hvalue
    · cases hvalue
    · split at hvalue
      · dsimp only at hvalue
        split at hvalue
        · split at hvalue
          · cases hvalue
          · cases hvalue
            exact ⟨_, rfl⟩
        · cases hvalue
          exact ⟨_, rfl⟩
      · cases hvalue

/-- What follows a label still adds only where the label stands. -/
theorem OnlyAppends.of_label {symbols : List Symbol}
    (hsymbols : KeepsDefinitions a { a with symbols := symbols })
    (h : OnlyAppends { a with symbols := symbols } b) : OnlyAppends a b where
  sections := h.sections
  others := h.others
  current := h.current
  kernels k hk hscope := ⟨(h.kernels k hk hscope).state, (h.kernels k hk hscope).output⟩
  definitions := hsymbols.trans h.definitions

theorem Consistent.onlyAppends_clause (h : a.Consistent) (x : Clause) :
    OnlyAppends a (a.afterAll [x]) := (h.step_after x).onlyAppends h

theorem Consistent.onlyAppends_clauses (h : a.Consistent) (c : Cursor) :
    OnlyAppends a (a.afterAll (Clause.ofStatement c)) := by
  -- labels come first, so every clause finds the assembly where the statement began
  fun_induction Clause.ofStatement c generalizing a with
  | case1 c start => exact .refl a
  | case3 c start hlimit name d hn span e hl =>
    rename_i ih
    have hstep := h.step_after (.label name (isName_of_name? hn) span)
    have hrest := ih (h.step hstep)
    obtain ⟨symbols, hlabel⟩ := a.after_label name (isName_of_name? hn) span
    show OnlyAppends a ((a.after _).afterAll _)
    rw [hlabel] at hstep hrest ⊢
    exact .of_label hstep.extends.definitions hrest
  | _ => exact h.onlyAppends_clause _

/-- **A statement adds only where the assembly stands.** -/
theorem Consistent.onlyAppends_statement (h : a.Consistent) (c : Cursor) :
    OnlyAppends a (a.statement c).1 := by
  rw [(statement_eq a c).1]
  exact h.onlyAppends_clauses c

/-! ## Second definitions -/

/-- Work that cannot have a value reports an error. -/
theorem Outcome.Yields.error {α : Type} {o : Outcome α} (h : o.Yields fun _ => False) :
    ∃ d ∈ o.reports, d.severity = .error := by
  by_contra hnone
  have hno : NoError o.reports := fun d hd herror => hnone ⟨d, hd, herror⟩
  obtain ⟨_, -, hfalse⟩ := h hno
  exact hfalse

/-- A name that has a definition cannot be defined again. -/
theorem yields_defineSymbol_of_defined {name : Bytes} {s : Symbol}
    (hs : Symbol.find? a.symbols name = some s) (hdefined : s.defined = true) (span : Span)
    (v : Value) : (a.defineSymbol name span v).Yields fun _ => False := by
  unfold defineSymbol
  dsimp only
  rw [hs]
  dsimp only
  rw [if_pos hdefined]
  exact Outcome.yields_stop rfl

/-- A label with a name that is defined is an error. -/
theorem label_error_of_defined {name : Bytes} {s : Symbol}
    (hs : Symbol.find? a.symbols name = some s) (hdefined : s.defined = true)
    (isName : IsName name) (span : Span) :
    ∃ d ∈ (a.perform (.label name isName span)).reports, d.severity = .error := by
  refine Outcome.Yields.error ?_
  show (a.defineLabel name span).Yields _
  unfold defineLabel
  split
  · exact Outcome.yields_fail _ _
  · split
    · exact yields_defineSymbol_of_defined hs hdefined span _
    · exact Outcome.yields_fail _ _

/-- An assignment to a name that is defined is an error. -/
theorem assignment_error_of_defined {name : Bytes} {s : Symbol}
    (hs : Symbol.find? a.symbols name = some s) (hdefined : s.defined = true)
    (isName : IsName name) (span : Span) (c : Cursor) :
    ∃ d ∈ (a.perform (.assignment name isName span c)).reports, d.severity = .error := by
  refine Outcome.Yields.error ?_
  show ((a.assign name span).run c).Yields _
  unfold assign
  rw [ArgReader.run_bind]
  refine (Outcome.yields_ofScanned (.expression a.lookup) c).andThen fun _ _ => ?_
  rw [ArgReader.run_bind]
  refine (Outcome.yields_ofScanned .noGarbage _).andThen fun _ _ => ?_
  refine Outcome.Yields.andThen (Outcome.Yields.andThen
    (yields_defineSymbol_of_defined hs hdefined span _) fun _ hfalse => hfalse.elim)
    (P := fun _ => False) fun _ hfalse => hfalse.elim

/-! ## Labels -/

/-- A label that is not refused names the place where the assembly stands, and the bytes up to there
are still in its section after any further clauses. -/
theorem Consistent.find?_of_label (h : a.Consistent) (hcurrent : a.current < UInt32.size)
    {name : Bytes} {isName : IsName name} {span : Span}
    (hno : NoError (a.perform (.label name isName span)).reports) (l : List Clause) :
    ∃ s, Symbol.find? (a.afterAll (.label name isName span :: l)).symbols name = some s ∧
      s.defined = true ∧ s.home = some a.current ∧ s.value = UInt64.ofNat a.position ∧
      s.value.toNat ≤ ((a.afterAll (.label name isName span :: l)).content a.current).length := by
  have hdefines := after_of_yields (x := .label name isName span)
    (yields_defineLabel a name span) hno
  have hstep := h.step_after (.label name isName span)
  have hrest := (h.step hstep).extends_afterAll l
  have hextends : Extends a (a.afterAll (.label name isName span :: l)) :=
    hstep.extends.trans hrest
  obtain ⟨s, hs, hdefined, hvalue, hhome⟩ := hrest.definitions.defines hdefines
  refine ⟨s, hs, hdefined, ?_, hvalue, ?_⟩
  · rw [hhome]
    exact congrArg some (UInt32.toNat_ofNat_of_lt' hcurrent)
  · have hlength := (hextends.contents a.current).length_le
    have hcut : (UInt64.ofNat a.position).toNat ≤ a.position := by
      rw [UInt64.toNat_ofNat']
      exact Nat.mod_le _ _
    rw [hvalue]
    exact Nat.le_trans hcut hlength

end CatalystAsm.Assembler

namespace CatalystAsm

open Assembler

variable {options : Options} {f : SourceFile} {cancelled : Option Nat} {pre post : List Clause}

/-- **Assembly only appends, and only where it stands.** Take any state on the way through a source.
A further statement keeps the sections of the table, the bytes of all sections but the current one,
whose bytes it may add to, and all kernels but the current one. Definitions stay for the rest of the
run, and a second one is an error. A label keeps naming the place where it was written, which never
lies behind the end of its section. -/
theorem Assembly.only_appends (hf : f.WellFormed)
    (hsplit : Clause.ofFile f cancelled = pre ++ post) :
    let a := (ofOptions options).afterAll pre
    (∀ c, OnlyAppends a (a.statement c).1) ∧
    (∀ l, KeepsDefinitions a (a.statements l).1) ∧
    (∀ name s, Symbol.find? a.symbols name = some s → s.defined = true → ∀ isName span,
      (∃ d ∈ (a.perform (.label name isName span)).reports, d.severity = .error) ∧
      ∀ c, ∃ d ∈ (a.perform (.assignment name isName span c)).reports, d.severity = .error) ∧
    ∀ name isName span later rest, post = .label name isName span :: (later ++ rest) →
      NoError (a.perform (.label name isName span)).reports →
      let z := (ofOptions options).afterAll (pre ++ .label name isName span :: later)
      ∃ s, Symbol.find? z.symbols name = some s ∧ s.defined = true ∧ s.home = some a.current ∧
        s.value = UInt64.ofNat a.position ∧ s.value.toNat ≤ (z.content a.current).length := by
  intro a
  have ha : a.Consistent := (consistent_ofOptions options).afterAll pre
  refine ⟨ha.onlyAppends_statement, ?_, ?_, ?_⟩
  · intro l
    rw [(statements_eq a l).1]
    exact (ha.extends_afterAll _).definitions
  · intro name s hs hdefined isName span
    exact ⟨label_error_of_defined hs hdefined isName span,
      assignment_error_of_defined hs hdefined isName span⟩
  · intro name isName span later rest hpost hno z
    subst hpost
    have hz : z = a.afterAll (.label name isName span :: later) := afterAll_append _ _ _
    rw [hz]
    exact ha.find?_of_label (Assembly.current_lt hf hsplit) hno later

/-- The name and the place of a label. -/
def Clause.label? : Clause → Option (Bytes × Span)
  | .label name _ span => some (name, span)
  | _ => none

theorem Clause.exists_of_label? {x : Clause} {name : Bytes} {span : Span}
    (h : x.label? = some (name, span)) : ∃ isName, x = .label name isName span := by
  cases x with
  | label n isName s =>
    cases h
    exact ⟨isName, rfl⟩
  | _ => cases h

/-- A label between two bytes of a kernel, and the same label again behind them. -/
def labelTwice : SourceFile where
  id := 0
  path := []
  content := .ofString ".kernel k\n.byte 1\nx: .byte 2\nx: .byte 3"

/-- The label is found between the two bytes, and stays there when it is set again. -/
theorem label_stays_between_bytes :
    let a := (ofOptions {}).afterAll ((Clause.ofFile labelTwice none).take 2)
    let z := (Assembly.ofFile {} labelTwice none).state
    (∀ c, OnlyAppends a (a.statement c).1) ∧ z.content 1 = [1, 2, 3] ∧
      ∃ s, Symbol.find? z.symbols [0x78] = some s ∧ s.home = some 1 ∧ s.value = 1 := by
  intro a z
  have hwellFormed : labelTwice.WellFormed := ⟨rfl, by decide +kernel⟩
  have hthird : ((Clause.ofFile labelTwice none)[2]?.bind Clause.label?)
      = some ([0x78], ⟨0, 18, 19⟩) := by decide +kernel
  obtain ⟨x, hx, hlabel⟩ := Option.bind_eq_some_iff.mp hthird
  obtain ⟨isName, rfl⟩ := Clause.exists_of_label? hlabel
  have hdrop : (Clause.ofFile labelTwice none).drop 2
      = .label [0x78] isName ⟨0, 18, 19⟩ :: ((Clause.ofFile labelTwice none).drop 3 ++ []) := by
    rw [List.append_nil]
    exact List.drop_eq_getElem?_toList_append.trans (by rw [hx]; rfl)
  have hno : (a.defineLabel [0x78] ⟨0, 18, 19⟩).reports = [] := by decide +kernel
  obtain ⟨happends, -, -, hlabels⟩ :=
    Assembly.only_appends hwellFormed (List.take_append_drop 2 _).symm
  obtain ⟨s, hs, -, hhome, hvalue, -⟩ := hlabels _ _ _ _ _ hdrop (by
    show NoError (a.defineLabel [0x78] ⟨0, 18, 19⟩).reports
    rw [hno]
    exact noError_nil)
  -- the clauses up to the end of the source are all of its clauses
  have hall : (Clause.ofFile labelTwice none).take 2 ++ .label [0x78] isName ⟨0, 18, 19⟩ ::
      (Clause.ofFile labelTwice none).drop 3 = Clause.ofFile labelTwice none := by
    rw [List.append_nil] at hdrop
    rw [← hdrop, List.take_append_drop]
  rw [hall, ← (Assembly.ofFile_eq {} labelTwice none).1] at hs
  have hplace : (a.current, a.position) = (1, 1) := by decide +kernel
  obtain ⟨hcurrent, hposition⟩ := Prod.mk.inj hplace
  refine ⟨happends, by decide +kernel, s, hs, ?_, ?_⟩
  · rw [hhome, hcurrent]
  · rw [hvalue, hposition]
    rfl

end CatalystAsm
