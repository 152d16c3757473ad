import CatalystAsm.Proofs.Assembly.Directive

/-!
# What the directives of the kernel format do

Sections of the current kernel are made and entered in one step, and a configuration changes only
the model. As for the other directives, a step never comes with an error.
-/

namespace CatalystAsm.Assembler

open ArgReader

variable {a : Assembler}

/-- The current kernel is the one of the scope, and its state is the one in the list of kernels. -/
theorem gives_currentKernel (a : Assembler) (place : Span) (what : String) :
    (a.currentKernel place what).Gives fun v =>
      a.scope = .kernel v.1 ∧ a.kernels[v.1]? = some v.2 := by
  unfold currentKernel
  split
  · exact Outcome.gives_fail _ _
  · rename_i hscope
    split
    · exact Outcome.gives_fail _ _
    · rename_i hk
      exact Outcome.gives_done ⟨hscope, hk⟩

/-- A problem that stops the work before the rest of it. -/
theorem settles_fail_bind {α : Type} (a : Assembler) (p : Problem) (span : Span)
    (f : α → ArgReader Assembler) : (fail p span >>= f).Settles a (Step a) :=
  (ArgReader.gives_fail (P := fun _ => False) p span).bind_settles fun _ h => h.elim

section

variable {k id : Nat} {kind : SectionKind} {remember : KernelState → Nat → KernelState}

/-- A section that the kernel has is entered. -/
theorem openOwnSection_some {s : TableSection} (hs : a.sections[id]? = some s) (place : Span) :
    a.openOwnSection place k (some id) kind remember = .done (a.moveTo s.scope id) := by
  unfold openOwnSection trySetSection
  dsimp only
  rw [hs]
  rfl

/-- A section that the kernel does not have is made and entered. -/
theorem openOwnSection_none (a : Assembler) (place : Span) :
    a.openOwnSection place k none kind remember
      = .done (((a.newSection { scope := .kernel k, kind }).1.modifyKernel k
        (remember · a.sections.length)).moveTo (.kernel k) a.sections.length) := by
  unfold openOwnSection trySetSection
  dsimp only [newSection, modifyKernel]
  rw [List.getElem?_concat_length]
  rfl

end

/-- A part of a kernel that a configuration excludes is entered, and made before if it is
missing. -/
theorem Consistent.settles_openPart (h : a.Consistent) (place : Span) {k : Nat}
    {state : KernelState} (hplace : a.scope = .kernel k ∧ a.kernels[k]? = some state)
    (hconfig : ¬state.config.isSome = true) {kind : SectionKind} {id : Option Nat}
    {remember : KernelState → Nat → KernelState} (hid : state.ids kind = id.toList)
    (hplain : plainTag (.kernel k) kind = .unmapped) (hkind : kind ≠ .extra ∧ kind ≠ .config)
    (hremember : id = none → ∀ n,
      state.Remembers (remember state n) { scope := .kernel k, kind } n) :
    (a.openOwnSection place k id kind remember).Settles a (Step a) := by
  obtain ⟨hscope, hk⟩ := hplace
  cases id with
  | some id =>
    have howns : Owns a.sections (.kernel k) id := by
      refine (h.kernels k state hk).owns kind ?_
      rw [hid]
      exact List.mem_singleton_self id
    obtain ⟨s, hs, -⟩ := howns
    rw [openOwnSection_some hs]
    exact (Outcome.gives_done (Moved.move ⟨s, hs, rfl⟩).entered.step).settles
  | none =>
    have hadmits : state.Admits kind :=
      KernelState.admits_of_config (Option.not_isSome_iff_eq_none.mp hconfig) hkind.2
    have hfits : TableSection.Fits { scope := .kernel k, kind } state.extras :=
      ⟨fun _ => hplain.symm, fun hextra => absurd hextra hkind.1,
        fun hextra => absurd hextra hkind.1, fun _ => (plainName_eq_nil hplain).symm,
        fun hextra => absurd hextra hkind.1⟩
    have hgrown : Grown (.kernel k) a ((a.newSection { scope := .kernel k, kind }).1.modifyKernel k
        (remember · a.sections.length)) :=
      .own rfl hk rfl hfits (hremember rfl a.sections.length) hadmits
    rw [openOwnSection_none]
    exact (Outcome.gives_done ((hgrown.entered rfl rfl).step_here hscope)).settles

/-- The metadata directive is a step without an error, or changes nothing. -/
theorem Consistent.settles_openMetadata (h : a.Consistent) (place : Span) :
    (a.openMetadata place).Settles a (Step a) := by
  unfold openMetadata
  refine (gives_lift (gives_currentKernel a place _)).bind_settles fun ⟨k, state⟩ hplace => ?_
  dsimp only
  split
  · exact settles_fail_bind a _ _ _
  · rename_i hconfig
    refine gives_finish.bind_settles fun _ _ => settles_lift ?_
    refine h.settles_openPart place hplace hconfig rfl rfl (by decide) fun hnone n => ?_
    exact ⟨fun kind => by cases kind <;> simp [KernelState.ids, hnone], by simp, by simp, rfl⟩

/-- The header directive is a step without an error, or changes nothing. -/
theorem Consistent.settles_openHeader (h : a.Consistent) (place : Span) :
    (a.openHeader place).Settles a (Step a) := by
  unfold openHeader
  refine (gives_lift (gives_currentKernel a place _)).bind_settles fun ⟨k, state⟩ hplace => ?_
  dsimp only
  split
  · exact settles_fail_bind a _ _ _
  · rename_i hconfig
    refine gives_finish.bind_settles fun _ _ => settles_lift ?_
    refine h.settles_openPart place hplace hconfig rfl rfl (by decide) fun hnone n => ?_
    exact ⟨fun kind => by cases kind <;> simp [KernelState.ids, hnone], by simp, by simp, rfl⟩

/-- A kernel of the model may change before or after the assembly moves. -/
theorem moveTo_modifyOutput (a : Assembler) (k : Nat) (f : Kernel → Kernel) (scope : Scope)
    (id : Nat) : (a.modifyOutput k f).moveTo scope id = (a.moveTo scope id).modifyOutput k f := by
  unfold moveTo saveSection modifyOutput
  dsimp only
  cases a.scope <;> rfl

/-- The configuration directive is a step without an error, or changes nothing. -/
theorem Consistent.settles_openConfig (h : a.Consistent) (place : Span) :
    (a.openConfig place).Settles a (Step a) := by
  unfold openConfig
  refine (gives_lift (gives_currentKernel a place _)).bind_settles fun ⟨k, state⟩ ⟨hscope, hk⟩ => ?_
  dsimp only
  split
  · exact settles_fail_bind a _ _ _
  · rename_i hparts
    refine gives_finish.bind_settles fun _ _ => ?_
    cases hconfig : state.config with
    | some id =>
      -- the configuration is entered again, and is in use again
      have hmem : id ∈ state.ids .config := Option.mem_toList.mpr hconfig
      rw [← (h.kernels k state hk).ids .config] at hmem
      obtain ⟨s, hs, hown, hkind⟩ := mem_idsOf.mp hmem
      have hmoved : Moved a (a.moveTo s.scope id) := .move ⟨s, hs, rfl⟩
      have hplace : (a.moveTo s.scope id).InConfig k := by
        refine ⟨hown, s, ?_, hkind⟩
        rw [sections_moveTo]
        exact hs
      rw [openOwnSection_some hs]
      refine (gives_lift (Outcome.gives_done rfl)).bind_settles fun b hb => ?_
      subst hb
      exact settles_pure ⟨_, hmoved.entered, .use hplace, .inl rfl, .inr (hown.trans hscope.symm)⟩
    | none =>
      have hgrown : Grown (.kernel k) a (a.withConfig k) :=
        .config rfl hk hconfig (Bool.eq_false_iff.mpr hparts)
      have hentered : Entered (.kernel k) a ((a.withConfig k).moveTo (.kernel k) _) :=
        hgrown.entered rfl rfl
      rw [Assembler.withConfig, moveTo_modifyOutput] at hentered
      rw [openOwnSection_none]
      refine (gives_lift (Outcome.gives_done rfl)).bind_settles fun b hb => ?_
      subst hb
      exact settles_pure (hentered.step_here hscope)

/-- A note is always made, and the assembly stands there. -/
theorem newNote_ok {k : Nat} {state : KernelState} (hk : a.kernels[k]? = some state)
    (hconfig : state.config = none) (type : NoteType) :
    (a.newNote k type).answer = .ok () ∧ Entered (.kernel k) a (a.newNote k type).state ∧
      (a.newNote k type).state.current = a.sections.length ∧
      ∃ s, (a.newNote k type).state.sections[a.sections.length]? = some s ∧ s.kind = .note := by
  unfold newNote newSection trySetSection modifyKernel
  dsimp only
  rw [List.getElem?_concat_length]
  refine ⟨rfl, Grown.entered (.own rfl hk rfl ⟨fun _ => rfl, ?_, ?_, fun _ => rfl, ?_⟩ ?_ ?_)
    rfl rfl, rfl, ?_⟩
  · exact fun hkind => by cases hkind
  · exact fun hkind => by cases hkind
  · exact fun hkind => by cases hkind
  · exact ⟨fun kind => by cases kind <;> simp [KernelState.ids], by simp, by simp, rfl⟩
  · exact KernelState.admits_of_config hconfig SectionKind.noConfusion
  · rw [sections_moveTo]
    exact ⟨_, List.getElem?_concat_length, rfl⟩

theorem gives_comesWithWord (type : NoteType) : (comesWithWord type).Gives fun _ => True := by
  unfold comesWithWord
  split
  · exact gives_atEnd.bind fun _ _ => gives_pure trivial
  · exact gives_pure trivial

/-- A note is added without an error, or not at all. -/
theorem settles_addNote (a : Assembler) (place : Place) (type : NoteType) (valued : Bool) :
    (a.addNote place type valued).Settles a (Step a) := by
  unfold addNote
  refine (gives_lift (gives_currentKernel a place.name _)).bind_settles
    fun ⟨k, state⟩ ⟨hscope, hk⟩ => ?_
  dsimp only
  split
  · exact settles_fail_bind a _ _ _
  · rename_i hconfig
    obtain ⟨hanswer, hentered, hcurrent, s, hs, hkind⟩ :=
      newNote_ok hk (Option.not_isSome_iff_eq_none.mp hconfig) type
    rw [← hscope] at hentered
    rw [← hcurrent] at hs
    refine (gives_comesWithWord type).bind_settles fun withWord _ => ?_
    split
    · refine (gives_absolute _).bind_settles fun ⟨v, span⟩ _ => ?_
      refine (gives_report (noError_rangeWarnings _ _ _)).bind_settles fun _ _ => ?_
      refine gives_finish.bind_settles fun _ _ => ?_
      -- the word goes into the note that was just made
      have hwriteable : s.kind.isWriteable = true := by rw [hkind]; rfl
      have hok : (a.newNote k type).answer.isOk = true := by rw [hanswer]; rfl
      rw [if_pos hok, putData_of_writeable hs hwriteable]
      have hfilled : Filled _ _ := .put (Bytes.littleEndian 4 v.toNat) hs (by rw [hkind]; decide)
      exact settles_lift
        (Outcome.gives_done ⟨_, hentered, hfilled, .inr (.inr hcurrent), .inl rfl⟩).settles
    · refine gives_finish.bind_settles fun _ _ => settles_lift ?_
      have hsettles : (a.newNote k type).Settles a (Step a) :=
        ⟨fun e he => (by cases hanswer.symm.trans he), fun _ _ => hentered.step⟩
      exact hsettles.outcome place.name

theorem settles_addAnyNote (a : Assembler) (place : Place) :
    (a.addAnyNote place).Settles a (Step a) := by
  unfold addAnyNote
  refine (gives_lift (gives_currentKernel a place.name _)).bind_settles fun _ _ => ?_
  refine (gives_word _).bind_settles fun type _ => ?_
  exact gives_comma.bind_settles fun valued _ => settles_addNote a place ⟨type⟩ valued

/-- The assembly stands in the configuration of the kernel that is found, and the values are those
of the model. -/
theorem gives_configKernel (a : Assembler) (place : Span) (what : String) :
    (a.configKernel place what).Gives fun v =>
      a.InConfig v.1 ∧ v.2 = (a.output.kernelList.getD v.1 {}).config := by
  unfold configKernel
  split
  · rename_i k s hscope hs
    split
    · rename_i hkind
      exact Outcome.gives_done ⟨⟨hscope, s, hs, hkind⟩, rfl⟩
    · exact Outcome.gives_fail _ _
  · exact Outcome.gives_fail _ _

/-- A change of the configuration that leaves the user data alone. -/
theorem settles_setConfig {k : Nat} {config new : KernelConfig}
    (h : a.InConfig k ∧ config = (a.output.kernelList.getD k {}).config)
    (hnew : new.userData = config.userData) :
    (pure (a.setConfig k new) : ArgReader Assembler).Settles a (Step a) := by
  obtain ⟨hplace, rfl⟩ := h
  refine settles_pure (Filled.configure hplace ?_).step
  rw [KernelConfig.userDataList, hnew]
  exact Nat.le_max_left _ _

/-- No plain value of a configuration touches the user data. -/
theorem ConfigField.userData_set (f : ConfigField) (c : KernelConfig) (v : UInt32) :
    (f.set c v).userData = c.userData := by cases f <;> rfl

theorem ConfigSwitch.userData_set (f : ConfigSwitch) (c : KernelConfig) :
    (f.set c).userData = c.userData := by cases f <;> rfl

/-- A value of the configuration is set without an error, or not at all. -/
theorem settles_setValue (a : Assembler) (place : Span) (field : ConfigField) :
    (a.setValue place field).Settles a (Step a) := by
  unfold setValue
  refine (gives_lift (gives_configKernel a place _)).bind_settles fun ⟨k, config⟩ hconfig => ?_
  refine (gives_word _).bind_settles fun v _ => ?_
  exact gives_finish.bind_settles fun _ _ =>
    settles_setConfig hconfig (ConfigField.userData_set field config v)

theorem settles_setSwitch (a : Assembler) (place : Span) (field : ConfigSwitch) :
    (a.setSwitch place field).Settles a (Step a) := by
  unfold setSwitch
  refine (gives_lift (gives_configKernel a place _)).bind_settles fun ⟨k, config⟩ hconfig => ?_
  exact gives_finish.bind_settles fun _ _ =>
    settles_setConfig hconfig (ConfigSwitch.userData_set field config)

theorem gives_workSizePart (a : Assembler) (more : Bool) :
    (a.workSizePart more).Gives fun _ => True := by
  unfold workSizePart
  split
  · exact gives_pure trivial
  · refine gives_comma.bind fun _ _ => ?_
    split
    · exact gives_pure trivial
    · refine gives_atEnd.bind fun _ _ => ?_
      split
      · exact gives_pure trivial
      · have hpeek : Gives (fun _ => True) (fun c => .done (c.peek?, c)) :=
          fun c => Outcome.gives_done trivial
        refine hpeek.bind fun _ _ => ?_
        split
        · exact gives_pure trivial
        · exact (gives_word _).bind fun _ _ => gives_pure trivial

/-- The work group size is set without an error, or not at all. -/
theorem settles_setWorkSize (a : Assembler) (place : Span) :
    (a.setWorkSize place).Settles a (Step a) := by
  unfold setWorkSize
  refine (gives_lift (gives_configKernel a place _)).bind_settles fun ⟨k, config⟩ hconfig => ?_
  refine (gives_word _).bind_settles fun x _ => ?_
  refine (gives_workSizePart a true).bind_settles fun ⟨y, more⟩ _ => ?_
  refine (gives_workSizePart a more).bind_settles fun ⟨z, _⟩ _ => ?_
  exact gives_finish.bind_settles fun _ _ => settles_setConfig hconfig rfl

/-- No error comes with a value of an entry. -/
theorem gives_entryValue (a : Assembler) (c : Cursor) (v : UInt64)
    (h : (a.entryValue c).1 = some v) : NoError (a.entryValue c).2.1 := by
  unfold entryValue at h ⊢
  split at h
  · exact noError_rangeWarnings _ _ _
  · cases h

/-- The words of an entry are put without an error, or not at all. -/
theorem settles_putEntry (a : Assembler) (types : List NoteType) (place : Place) (c : Cursor) :
    (a.putEntry types place c).Settles a (Step a) := by
  unfold putEntry
  split
  · exact Outcome.settles_fail _ _
  · dsimp only
    split
    · exact Outcome.settles_of_value_eq_none rfl
    · split
      · rename_i hfirst hsecond
        have hreports := (gives_entryValue a _ _ hfirst).append (gives_entryValue a _ _ hsecond)
        refine (Outcome.gives_reports hreports).andThen_settles fun _ _ => ?_
        refine (Outcome.gives_ofScanned _).andThen_settles fun _ _ => ?_
        exact ((gives_putData a _ _).mono fun _ => Filled.step).settles
      · exact Outcome.settles_of_value_eq_none rfl

/-- No error comes with the qualifiers of an argument. -/
theorem gives_qualifiers (arg : KernelArg) : (qualifiers arg).Gives fun _ => True := by
  intro c
  unfold qualifiers
  refine (gives_comma c).andThen fun ⟨more, d⟩ _ => ?_
  dsimp only
  split
  · exact Outcome.gives_done trivial
  · refine Outcome.Gives.andThen (P := fun _ => True) ?_ fun b _ => ?_
    · -- the reading of one qualifier after another stops without a value or goes on
      refine List.foldlRecOn (motive := fun r : Outcome KernelArg × Bool =>
        r.1.Gives fun _ => True) _ _ (Outcome.gives_done trivial) ?_
      intro r hr q _
      refine hr.andThen fun b _ => ?_
      split
      · exact Outcome.gives_done trivial
      · exact Outcome.gives_fail _ _
    · split
      · exact Outcome.gives_of_value_eq_none rfl
      · exact Outcome.gives_done trivial

theorem gives_userDataClass (a : Assembler) : a.userDataClass.Gives fun _ => True := by
  intro c
  unfold userDataClass
  dsimp only
  split
  · exact gives_word _ _
  · split
    · exact Outcome.gives_done trivial
    · split
      · exact Outcome.gives_fail _ _
      · exact gives_word _ _

/-- An argument is added to the configuration without an error, or not at all. -/
theorem settles_addArg (a : Assembler) (place : Span) : (a.addArg place).Settles a (Step a) := by
  unfold addArg
  refine (gives_lift (gives_configKernel a place _)).bind_settles fun ⟨k, config⟩ hconfig => ?_
  refine (gives_name _).bind_settles fun ⟨argName, _⟩ _ => ?_
  refine (gives_requiredComma _).bind_settles fun _ _ => ?_
  refine gives_string.bind_settles fun typeName _ => ?_
  refine (gives_requiredComma _).bind_settles fun _ _ => ?_
  refine (gives_name _).bind_settles fun ⟨typeText, span⟩ _ => ?_
  dsimp only
  split
  · exact settles_fail _ _
  · refine (gives_qualifiers _).bind_settles fun arg _ => ?_
    exact settles_setConfig hconfig rfl

/-- A slot of user data is added without an error, or not at all. -/
theorem settles_addUserData (a : Assembler) (place : Span) :
    (a.addUserData place).Settles a (Step a) := by
  unfold addUserData
  refine (gives_lift (gives_configKernel a place _)).bind_settles fun ⟨k, config⟩ hconfig => ?_
  refine (gives_userDataClass a).bind_settles fun _ _ => ?_
  refine (gives_requiredComma _).bind_settles fun _ _ => ?_
  refine (gives_word _).bind_settles fun _ _ => ?_
  refine (gives_requiredComma _).bind_settles fun _ _ => ?_
  refine (gives_word _).bind_settles fun _ _ => ?_
  refine (gives_requiredComma _).bind_settles fun _ _ => ?_
  refine (gives_word _).bind_settles fun _ _ => ?_
  refine gives_finish.bind_settles fun _ _ => ?_
  dsimp only
  split
  · exact settles_fail_bind a _ _ _
  · rename_i hroom
    refine settles_pure (Filled.configure hconfig.1 (Nat.le_trans ?_ (Nat.le_max_right _ _))).step
    rw [KernelConfig.userDataList, Option.getD_some, List.length_append]
    exact Nat.not_le.mp hroom

/-- A text of the binary is set without an error, or not at all. -/
theorem settles_setText (a : Assembler) {set : Model → Bytes → Model}
    (hset : ∀ s, Filled a { a with output := set a.output s }) :
    (a.setText set).Settles a (Step a) := by
  unfold setText
  refine gives_string.bind_settles fun s _ => ?_
  exact gives_finish.bind_settles fun _ _ => settles_pure (hset s).step

/-- **A directive of the kernel format leaves the state alone or makes a step without an error.** -/
theorem Consistent.settles_executeKernel (h : a.Consistent) (d : KernelDirective) (place : Place)
    (c : Cursor) : (a.executeKernel d place c).Settles a (Step a) := by
  cases d with
  | arg => exact settles_addArg a _ c
  | note type => exact settles_addNote a place type false c
  | anyNote => exact settles_addAnyNote a place c
  | value field => exact settles_setValue a _ field c
  | «switch» field => exact settles_setSwitch a _ field c
  | entry types => exact settles_putEntry a types place c
  | compileOptions =>
    exact settles_setText a (fun s => .texts s a.output.driverInfo a.output.driverVersion) c
  | config => exact h.settles_openConfig _ c
  | workSize => exact settles_setWorkSize a _ c
  | driverInfo =>
    exact settles_setText a (fun s => .texts a.output.compileOptions s a.output.driverVersion) c
  | driverVersion =>
    refine ((gives_word _).bind_settles fun v _ => ?_) c
    refine gives_finish.bind_settles fun _ _ => settles_pure ?_
    exact (Filled.texts a.output.compileOptions a.output.driverInfo v).step
  | globalData =>
    refine (gives_finish.bind_settles fun _ _ => settles_lift ?_) c
    exact ((settles_trySetSection a _).mono fun _ hb => hb.entered.step).outcome _
  | header => exact h.settles_openHeader _ c
  | metadata => exact h.settles_openMetadata _ c
  | userData => exact settles_addUserData a _ c

end CatalystAsm.Assembler
