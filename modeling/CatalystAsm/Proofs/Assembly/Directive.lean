import CatalystAsm.Proofs.Assembly.State

/-!
# What the directives of every format do

Each directive leaves a consistent state alone, or makes one step and reports no error.
-/

namespace CatalystAsm.Assembler

open ArgReader

variable {a : Assembler}

/-- A kernel directive is a step without an error, or changes nothing. -/
theorem Consistent.settles_openKernel (h : a.Consistent) (place : Span) (name : Bytes) :
    (a.openKernel place name).Settles a (Step a) := by
  unfold openKernel
  split
  · exact ((h.settles_trySetKernel _).mono fun _ hb => hb.entered.step).outcome place
  · rw [addKernel_eq]
    have hentered : Entered a.scope a _ := Grown.entered (.kernel name) rfl rfl
    refine (Outcome.gives_done ⟨_, hentered, .named true ?_, .inl rfl, .inl rfl⟩).settles
    intro e he
    rw [length_kernels_moveTo]
    have hlen : (a.withKernel name).kernels.length = a.kernels.length + 1 := List.length_append
    rcases List.mem_append.mp he with he | he
    · exact Nat.lt_of_lt_of_eq (Nat.lt_succ_of_lt (h.names e he)) hlen.symm
    · rw [List.mem_singleton.mp he, hlen]
      exact Nat.lt_succ_self _

/-- A section directive is a step without an error, or changes nothing. -/
theorem Consistent.settles_openSection (h : a.Consistent) (place : Span) (name : Bytes) :
    (a.openSection place name).Settles a (Step a) := by
  unfold openSection
  split
  · exact ((settles_trySetSection a _).mono fun _ hb => hb.entered.step).outcome place
  · exact ((h.settles_tryAddSection _ _).mono fun _ hb => hb.step).outcome place

theorem gives_sectionName : sectionName.Gives fun _ => True := by
  intro c
  unfold sectionName
  dsimp only
  split
  · exact gives_string _
  · exact ((gives_name _).bind (Q := fun _ => True) fun _ _ => gives_pure trivial) _

/-- A list that was read to its end has no error when none of its items has one. -/
theorem noError_listReports {α : Type} {about : α → List Diagnostic} {items : List α × Option Stop}
    (habout : ∀ x, NoError (about x)) (hitems : items.2.isSome = false) :
    NoError (listReports about items) := by
  have hnone : items.2 = none := Option.isNone_iff_eq_none.mp (Option.isSome_eq_false_iff.mp hitems)
  intro d hd
  rw [listReports, hnone] at hd
  rcases List.mem_append.mp hd with hd | hd
  · obtain ⟨x, -, hx⟩ := List.mem_flatMap.mp hd
    exact habout x d hx
  · cases hd

/-- Putting bytes, if there are any. -/
theorem settles_putSome (a : Assembler) (stmt : Span) (b : Bytes) :
    (if b.isEmpty then Outcome.done a else a.putData stmt b).Settles a (Step a) := by
  split
  · exact (Outcome.gives_done (Step.refl a)).settles
  · exact ((gives_putData a stmt b).mono fun _ => Filled.step).settles

/-- Numbers are put without an error, or not at all: that one is too large is a warning. -/
theorem settles_putNumbers (a : Assembler) (size : Nat) (stmt : Span) (c : Cursor) :
    (a.putNumbers size stmt c).Settles a (Step a) := by
  unfold putNumbers
  dsimp only
  split
  · exact Outcome.settles_of_value_eq_none rfl
  · rename_i hitems
    have hreports := noError_listReports
      (fun x : UInt64 × Span => noError_rangeWarnings (size * 8) x.1 x.2)
      (Bool.eq_false_iff.mpr hitems)
    exact (Outcome.gives_reports hreports).andThen_settles fun _ _ => settles_putSome a stmt _

/-- Strings are put without an error, or not at all. -/
theorem settles_putStrings (a : Assembler) (terminated : Bool) (stmt : Span) (c : Cursor) :
    (a.putStrings terminated stmt c).Settles a (Step a) := by
  unfold putStrings
  dsimp only
  by_cases hstop : (Statement.items Statement.quotedString Statement.length_rest_quotedString true
    c).2.isSome
  · rw [if_pos hstop]
    exact Outcome.settles_of_value_eq_none rfl
  · rw [if_neg hstop]
    exact settles_putSome a stmt _

/-- That the size of a fill is cut to eight bytes is a warning. -/
theorem noError_fillSize (size : UInt64) (span : Span) :
    NoError (if 8 < size then [Problem.fillSize.warning span] else []) := by
  intro d hd
  split at hd
  · rw [List.mem_singleton.mp hd]
    show Severity.warning ≠ Severity.error
    decide
  · cases hd

/-- No error comes with the arguments of a fill. -/
theorem gives_fillArguments (a : Assembler) : a.fillArguments.Gives fun _ => True := by
  unfold fillArguments
  refine (gives_absolute _).bind fun ⟨count, span⟩ _ => ?_
  refine gives_comma.bind fun more _ => ?_
  dsimp only
  split
  · refine (gives_absolute _).bind fun ⟨size, sizeSpan⟩ _ => ?_
    refine (gives_report (noError_fillSize size sizeSpan)).bind fun _ _ => ?_
    refine gives_comma.bind fun valued _ => ?_
    split
    · refine (gives_absolute _).bind fun ⟨value, valueSpan⟩ _ => ?_
      refine (gives_report (noError_rangeWarnings _ _ _)).bind fun _ _ => ?_
      exact gives_finish.bind fun _ _ => gives_pure trivial
    · exact gives_finish.bind fun _ _ => gives_pure trivial
  · exact gives_finish.bind fun _ _ => gives_pure trivial

/-- A fill puts its bytes without an error, or not at all. -/
theorem settles_putFill (a : Assembler) (stmt : Span) (c : Cursor) :
    (a.putFill stmt c).Settles a (Step a) := by
  unfold putFill
  refine ((gives_fillArguments a).run c).andThen_settles fun ⟨count, span, size, value⟩ _ => ?_
  dsimp only
  split
  · exact Outcome.settles_fail _ _
  · exact ((gives_putData a stmt _).mono fun _ => Filled.step).settles

theorem gives_skipArguments (a : Assembler) : a.skipArguments.Gives fun _ => True := by
  unfold skipArguments
  refine (gives_absolute _).bind fun ⟨n, span⟩ _ => ?_
  refine gives_comma.bind fun more _ => ?_
  dsimp only
  split
  · refine (gives_absolute _).bind fun ⟨value, valueSpan⟩ _ => ?_
    refine (gives_report (noError_rangeWarnings _ _ _)).bind fun _ _ => ?_
    exact gives_finish.bind fun _ _ => gives_pure trivial
  · exact gives_finish.bind fun _ _ => gives_pure trivial

theorem settles_putSkip (a : Assembler) (stmt : Span) (c : Cursor) :
    (a.putSkip stmt c).Settles a (Step a) := by
  unfold putSkip
  refine ((gives_skipArguments a).run c).andThen_settles fun ⟨n, span, value⟩ _ => ?_
  dsimp only
  split
  · exact Outcome.settles_fail _ _
  · exact ((gives_putData a stmt _).mono fun _ => Filled.step).settles

/-- Every item of a list was read by its scanner. -/
theorem exists_scan_of_mem_items {α : Type} {scan : Cursor → Scanned α}
    (shorter : ∀ {c d v}, scan c = .ok (v, d) → d.rest.length < c.rest.length) {open_ : Bool}
    {c : Cursor} {v : α} (h : v ∈ (Statement.items scan shorter open_ c).1) :
    ∃ d e, scan d = .ok (v, e) := by
  fun_induction Statement.items scan shorter open_ c with
  | case1 => cases h
  | case2 => cases h
  | case3 _ _ w d hscan =>
    rw [List.mem_singleton.mp h]
    exact ⟨_, d, hscan⟩
  | case4 _ _ w d hscan =>
    rw [List.mem_singleton.mp h]
    exact ⟨_, d, hscan⟩
  | case5 _ _ w d hscan e _ rest stop hitems ih =>
    rcases List.mem_cons.mp h with rfl | hrest
    · exact ⟨_, d, hscan⟩
    · rw [hitems] at ih
      exact ih hrest

/-- Symbols get another binding without an error, or not at all. -/
theorem settles_bindSymbols (a : Assembler) (bind : UInt8) (c : Cursor) :
    (a.bindSymbols bind c).Settles a (Step a) := by
  unfold bindSymbols
  dsimp only
  split
  · exact Outcome.settles_of_value_eq_none rfl
  · have hkeeps : Symbol.KeepsDefinition (·.withBind bind) := fun _ => ⟨rfl, rfl, rfl, rfl⟩
    refine (Outcome.gives_done (Filled.step (.mark hkeeps ?_))).settles
    intro n hn
    obtain ⟨d, e, hread⟩ := exists_scan_of_mem_items Statement.length_rest_expectName hn
    exact isName_of_expectName hread

/-- The size of a symbol is set without an error, or not at all. -/
theorem settles_sizeSymbol (a : Assembler) : a.sizeSymbol.Settles a (Step a) := by
  unfold sizeSymbol
  refine (gives_name _).bind_settles fun ⟨n, span⟩ hname => ?_
  refine (gives_requiredComma _).bind_settles fun _ _ => ?_
  refine (gives_absolute _).bind_settles fun ⟨size, _⟩ _ => ?_
  refine gives_finish.bind_settles fun _ _ => ?_
  have hkeeps : Symbol.KeepsDefinition ({ · with size }) := fun _ => ⟨rfl, rfl, rfl, rfl⟩
  have hnames : ∀ m ∈ [(n, span)], IsName m.1 := by
    intro m hm
    rw [List.mem_singleton.mp hm]
    exact hname
  exact settles_pure (Filled.step (.mark hkeeps hnames))

/-- The word size is set without an error, or not at all. -/
theorem settles_setWordSize (a : Assembler) (is64 : Bool) (place : Span) :
    (a.setWordSize is64 place).Settles a (Step a) := by
  unfold setWordSize
  split
  · exact Outcome.settles_fail _ _
  · exact (Outcome.gives_done (Filled.target is64 a.options.device).step).settles

/-- The device is set without an error, or not at all. -/
theorem settles_setDevice (a : Assembler) : a.setDevice.Settles a (Step a) := by
  unfold setDevice
  refine (gives_name _).bind_settles fun ⟨n, span⟩ _ => ?_
  refine gives_finish.bind_settles fun _ _ => ?_
  dsimp only
  split
  · exact settles_fail _ _
  · exact settles_pure (Filled.target a.options.is64 _).step

theorem settles_setArchitecture (a : Assembler) : a.setArchitecture.Settles a (Step a) := by
  unfold setArchitecture
  refine (gives_name _).bind_settles fun ⟨n, span⟩ _ => ?_
  refine gives_finish.bind_settles fun _ _ => ?_
  dsimp only
  split
  · exact settles_fail _ _
  · exact settles_pure (Filled.target a.options.is64 _).step

/-- **A directive of every format leaves the state alone or makes a step without an error.** -/
theorem Consistent.settles_execute (h : a.Consistent) (d : Directive) (place : Place) (c : Cursor) :
    (a.execute d place c).Settles a (Step a) := by
  cases d with
  | kernel =>
    refine ((gives_name _).bind_settles fun ⟨n, _⟩ _ => ?_) c
    exact gives_finish.bind_settles fun _ _ => settles_lift (h.settles_openKernel _ n)
  | main =>
    refine (gives_finish.bind_settles fun _ _ => settles_lift ?_) c
    exact ((h.settles_trySetKernel .global).mono fun _ hb => hb.entered.step).outcome _
  | «section» =>
    refine (gives_sectionName.bind_settles fun n _ => ?_) c
    exact gives_finish.bind_settles fun _ _ => settles_lift (h.settles_openSection _ n)
  | namedSection n =>
    exact (gives_finish.bind_settles fun _ _ => settles_lift (h.settles_openSection _ n)) c
  | numbers size => exact settles_putNumbers a size _ c
  | strings terminated => exact settles_putStrings a terminated _ c
  | fill => exact settles_putFill a _ c
  | skip => exact settles_putSkip a _ c
  | binding bind => exact settles_bindSymbols a bind c
  | symbolSize => exact settles_sizeSymbol a c
  | wordSize is64 =>
    exact (gives_finish.bind_settles fun _ _ => settles_lift (settles_setWordSize a is64 _)) c
  | gpu => exact settles_setDevice a c
  | arch => exact settles_setArchitecture a c

end CatalystAsm.Assembler
