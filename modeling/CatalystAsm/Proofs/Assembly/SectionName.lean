import CatalystAsm.Proofs.Assembly.Definition

/-!
# Sections by name

A section is looked up in what its scope remembers and made in the section table. The two agree
because the table itself tells which section a name stands for: the one with the scope, the name and
the kind that belongs to the name (`IsSectionOf`). The lookup finds exactly that section
(`Assembler.Consistent.sectionId?_eq_some_iff`), and since the table only grows, it is found again
in all later states.
-/

namespace CatalystAsm

/-- Where keys are different, what is looked up is what is listed. -/
theorem lookup_eq_some_iff_mem {α β : Type} [BEq α] [LawfulBEq α] {l : List (α × β)}
    (h : (l.map (·.1)).Nodup) {k : α} {v : β} : l.lookup k = some v ↔ (k, v) ∈ l := by
  induction l with
  | nil => simp
  | cons e l ih =>
    obtain ⟨key, value⟩ := e
    obtain ⟨hkey, hrest⟩ := List.nodup_cons.mp h
    rw [List.lookup_cons, List.mem_cons]
    by_cases hk : k = key
    · subst hk
      have hother : (k, v) ∉ l := fun hmem => hkey (List.mem_map.mpr ⟨_, hmem, rfl⟩)
      simp [hother, eq_comm]
    · have hne : (k == key) = false := beq_eq_false_iff_ne.mpr hk
      rw [hne]
      simp [hk, ih hrest]

/-! ## Names -/

/-- Every section of the table is named for its kind. -/
def Assembler.WellNamed (a : Assembler) : Prop := ∀ s ∈ a.sections, s.WellNamed

theorem wellNamed_append {sections : List TableSection} {s : TableSection}
    (h : ∀ t ∈ sections, t.WellNamed) (hs : s.WellNamed) : ∀ t ∈ sections ++ [s], t.WellNamed := by
  intro t ht
  rcases List.mem_append.mp ht with ht | ht
  · exact h t ht
  · rw [List.mem_singleton.mp ht]
    exact hs

namespace Assembler

variable {a b : Assembler} {name : Bytes} {id : Nat}

/-- Growing the table keeps its sections named for their kinds. -/
theorem WellNamed.grown {scope : Scope} (h : a.WellNamed) (hab : Grown scope a b) :
    b.WellNamed := by
  cases hab with
  | same => exact h
  | kernel name => exact wellNamed_append h ⟨fun _ => rfl, fun hkind => by cases hkind⟩
  | own _ _ _ hfits => exact wellNamed_append h hfits.wellNamed
  | config => exact wellNamed_append h ⟨fun _ => rfl, fun hkind => by cases hkind⟩
  | extra _ _ hfits => exact wellNamed_append h hfits.wellNamed

/-- **A step leaves all sections named for their kinds.** -/
theorem WellNamed.step {scope : Scope} (h : a.WellNamed) (hab : StepIn scope a b) :
    b.WellNamed := by
  obtain ⟨d, ⟨c, hgrown, hmoved⟩, hfilled, -⟩ := hab
  have hd : d.sections = c.sections := by
    cases hmoved with
    | same => rfl
    | move => exact sections_moveTo ..
  have hb : b.sections = d.sections := by
    cases hfilled <;> rfl
  unfold WellNamed
  rw [hb, hd]
  exact h.grown hgrown

/-- In every reachable state, sections are named for their kinds. -/
theorem Reachable.wellNamed (h : Reachable a) : a.WellNamed := by
  refine (h.invariant (P := WellNamed) ?_ fun _ _ _ hb hstep => hb.step hstep).2
  intro options s hs
  rw [List.mem_singleton.mp hs]
  exact ⟨fun _ => rfl, fun hkind => by cases hkind⟩

/-- Actions lead from reachable states to reachable states. -/
theorem Reachable.actAll (h : Reachable a) (l : List Action) : Reachable (a.actAll l) := by
  induction l generalizing a with
  | nil => exact h
  | cons x l ih =>
    refine ih ?_
    cases x with
    | clause x => exact h.clause x
    | addKernel name => exact h.addKernel name
    | addSection name scope => exact h.addSection name scope
    | setKernel scope => exact h.setKernel scope
    | setSection id => exact h.setSection id

/-- The names of code and data. -/
theorem textOrData?_cases (name : Bytes) :
    (name = codeName ∧ textOrData? name = some (.code, .text)) ∨
    (name = dataName ∧ textOrData? name = some (.data, .data)) ∨
    (name ≠ codeName ∧ name ≠ dataName ∧ textOrData? name = none) := by
  unfold textOrData?
  by_cases hcode : name = codeName
  · exact .inl ⟨hcode, if_pos hcode⟩
  · rw [if_neg hcode]
    by_cases hdata : name = dataName
    · exact .inr (.inl ⟨hdata, if_pos hdata⟩)
    · exact .inr (.inr ⟨hcode, hdata, if_neg hdata⟩)

/-- The kind of the sections that a name stands for. -/
def kindNamed (name : Bytes) : SectionKind := ((textOrData? name).map (·.1)).getD .extra

end Assembler

/-- Section `id` is the one that a name stands for in a scope. -/
def IsSectionOf (sections : List TableSection) (scope : Scope) (name : Bytes) (id : Nat) : Prop :=
  ∃ s, sections[id]? = some s ∧ s.scope = scope ∧ s.kind = Assembler.kindNamed name ∧ s.name = name

/-- The section of a name is still the same one in a longer table. -/
theorem IsSectionOf.mono {sections later : List TableSection} {scope : Scope} {name : Bytes}
    {id : Nat} (h : IsSectionOf sections scope name id) (hlater : sections <+: later) :
    IsSectionOf later scope name id := by
  obtain ⟨s, hs, hrest⟩ := h
  obtain ⟨more, rfl⟩ := hlater
  refine ⟨s, ?_, hrest⟩
  rw [List.getElem?_append_left (List.getElem?_eq_some_iff.mp hs).1, hs]

/-- A section belongs to one scope. -/
theorem IsSectionOf.scope_unique {sections : List TableSection} {scope other : Scope}
    {name : Bytes} {id : Nat} (h : IsSectionOf sections scope name id)
    (hother : IsSectionOf sections other name id) : scope = other := by
  obtain ⟨s, hs, hscope, -⟩ := h
  obtain ⟨t, ht, hscope', -⟩ := hother
  obtain rfl := Option.some.inj (hs.symm.trans ht)
  exact hscope.symm.trans hscope'

/-- The listed extra sections are those of the table. -/
theorem ListsExtras.lookup_eq_some_iff {sections : List TableSection} {scope : Scope}
    {extras : List (Bytes × Nat)} (h : ListsExtras sections scope extras) {name : Bytes}
    {id : Nat} : extras.lookup name = some id ↔
      ∃ s, sections[id]? = some s ∧ s.scope = scope ∧ s.kind = .extra ∧ s.name = name := by
  rw [lookup_eq_some_iff_mem h.nodup, ← h.entries, List.mem_map]
  constructor
  · rintro ⟨e, he, heq⟩
    cases heq
    obtain ⟨hs, hscope, hkind⟩ := mem_entriesOf.mp he
    exact ⟨e.1, hs, hscope, hkind, rfl⟩
  · rintro ⟨s, hs, hscope, hkind, rfl⟩
    exact ⟨(s, id), mem_entriesOf.mpr ⟨hs, hscope, hkind⟩, rfl⟩

namespace Assembler

variable {a b : Assembler} {name : Bytes} {id : Nat}

/-! ## Lookup -/

/-- The one section of a kind that is not extra is the one that the name of the kind stands for. -/
theorem isSectionOf_iff_mem_idsOf (hnamed : a.WellNamed) {scope : Scope}
    (hextra : kindNamed name ≠ .extra) (hname : plainName scope (kindNamed name) = name) :
    IsSectionOf a.sections scope name id ↔ id ∈ idsOf a.sections scope (kindNamed name) := by
  rw [mem_idsOf]
  constructor
  · rintro ⟨s, hs, hscope, hkind, -⟩
    exact ⟨s, hs, hscope, hkind⟩
  · rintro ⟨s, hs, hscope, hkind⟩
    refine ⟨s, hs, hscope, hkind, ?_⟩
    rw [(hnamed s (List.mem_of_getElem? hs)).plain (hkind ▸ hextra), hscope, hkind]
    exact hname

/-- Outside kernels no section is named for code or data. -/
theorem name_ne_of_global (hnamed : a.WellNamed) (hname : textOrData? name ≠ none)
    {s : TableSection} (hs : a.sections[id]? = some s) (hscope : s.scope = .global) :
    s.name ≠ name := by
  rintro rfl
  have hwell := hnamed s (List.mem_of_getElem? hs)
  by_cases hkind : s.kind = .extra
  · exact hname (hwell.extra hkind)
  · have hplain := hwell.plain hkind
    rw [hscope] at hplain
    have hnil : s.name = [] := hplain
    rw [hnil] at hname
    exact hname (by decide)

/-- The kernel where the assembly stands exists. -/
theorem Consistent.exists_currentKernel (h : a.Consistent) {k : Nat}
    (hscope : a.scope = .kernel k) : ∃ state, a.kernels[k]? = some state := by
  have howns := h.current
  rw [hscope] at howns
  exact (h.exists_kernel howns).1

/-- **The lookup finds the section that the name stands for.** -/
theorem Consistent.sectionId?_eq_some_iff (h : a.Consistent) (hnamed : a.WellNamed) :
    a.sectionId? name = some id ↔ IsSectionOf a.sections a.scope name id := by
  cases hscope : a.scope with
  | global =>
    have hlookup : a.sectionId? name = a.extras.lookup name := by
      rw [sectionId?, hscope]
    rw [hlookup, h.extras.lookup_eq_some_iff]
    by_cases hname : textOrData? name = none
    · rw [IsSectionOf, kindNamed, hname]
      rfl
    · -- the names of code and data are neither listed nor in the table
      have hnone (kind : SectionKind) : ¬∃ s, a.sections[id]? = some s ∧ s.scope = .global ∧
          s.kind = kind ∧ s.name = name := by
        rintro ⟨s, hs, hglobal, -, heq⟩
        exact name_ne_of_global hnamed hname hs hglobal heq
      exact iff_of_false (hnone _) (hnone _)
  | kernel k =>
    obtain ⟨state, hk⟩ := h.exists_currentKernel hscope
    have hlists := h.kernels k state hk
    rw [sectionId?, hscope]
    dsimp only
    rw [hk, Option.bind_some]
    rcases textOrData?_cases name with ⟨rfl, hname⟩ | ⟨rfl, hname⟩ | ⟨-, -, hname⟩
    · have hkind : kindNamed codeName = .code := rfl
      rw [isSectionOf_iff_mem_idsOf hnamed (by decide) rfl, hkind, hlists.ids .code]
      rw [hname]
      simp [KernelState.ids, eq_comm]
    · have hkind : kindNamed dataName = .data := by decide
      rw [isSectionOf_iff_mem_idsOf hnamed (by decide) (by rw [hkind]; rfl), hkind,
        hlists.ids .data]
      rw [hname]
      simp [KernelState.ids]
    · rw [IsSectionOf, kindNamed, hname]
      exact hlists.extras.lookup_eq_some_iff

/-! ## Opening a section -/

/-- A section outside kernels cannot be named for code or data. -/
def RefusesSection (a : Assembler) (name : Bytes) : Prop :=
  a.scope = .global ∧ (name = codeName ∨ name = dataName)

instance (a : Assembler) (name : Bytes) : Decidable (a.RefusesSection name) :=
  inferInstanceAs (Decidable (_ ∧ _))

/-- Opening a section that is there moves to it, and makes no second one. -/
theorem openSection_of_isSectionOf (h : a.Consistent) (hnamed : a.WellNamed)
    (hid : IsSectionOf a.sections a.scope name id) (place : Span) :
    a.openSection place name = .done (a.moveTo a.scope id) := by
  have hfound := (h.sectionId?_eq_some_iff hnamed).mpr hid
  obtain ⟨s, hs, hscope, -⟩ := hid
  rw [openSection, hfound]
  dsimp only
  rw [trySetSection, hs, ← hscope]
  rfl

/-- Opening code or data outside kernels is an error, and nothing changes. -/
theorem openSection_of_refuses (h : a.Consistent) (hnamed : a.WellNamed)
    (hrefuses : a.RefusesSection name) (place : Span) : a.openSection place name
      = ⟨[(Problem.structural (.onlyInKernels name)).error place []], some a⟩ := by
  obtain ⟨hscope, hname⟩ := hrefuses
  obtain ⟨made, hmade⟩ : ∃ made, textOrData? name = some made := by
    rcases hname with rfl | rfl
    · exact ⟨_, rfl⟩
    · exact ⟨_, rfl⟩
  have hnone : a.sectionId? name = none := by
    rw [Option.eq_none_iff_forall_ne_some]
    intro id hid
    obtain ⟨s, hs, hglobal, -, heq⟩ := (h.sectionId?_eq_some_iff hnamed).mp hid
    exact name_ne_of_global hnamed (by rw [hmade]; simp) hs (hglobal.trans hscope) heq
  rw [openSection, hnone]
  dsimp only
  rw [tryAddSection, hmade, hscope]
  rfl

/-- A name that is not looked up with success is not listed. -/
theorem any_eq_false_of_lookup {extras : List (Bytes × Nat)} (h : extras.lookup name = none) :
    extras.any (·.1 == name) = false := by
  rw [List.any_eq_false]
  intro e he heq
  have hne := List.lookup_eq_none_iff.mp h e he
  rw [beq_iff_eq.mp heq] at hne
  simp at hne

/-- A section that is missing is made where the assembly stands. -/
theorem openSection_of_missing (h : a.Consistent) (haccepts : ¬a.RefusesSection name)
    (hmissing : a.sectionId? name = none) (place : Span) :
    ∃ (c : Assembler) (s : TableSection),
      a.openSection place name = .done (c.moveTo a.scope a.sections.length) ∧
      c.sections = a.sections ++ [s] ∧ s.scope = a.scope ∧ s.kind = kindNamed name ∧
      s.name = name := by
  have hadd : a.openSection place name = (a.tryAddSection name a.scope).outcome place := by
    rw [openSection, hmissing]
  rw [hadd]
  cases hscope : a.scope with
  | global =>
    have hfree : textOrData? name = none := by
      rcases textOrData?_cases name with ⟨hname, -⟩ | ⟨hname, -⟩ | ⟨-, -, hname⟩
      · exact absurd ⟨hscope, .inl hname⟩ haccepts
      · exact absurd ⟨hscope, .inr hname⟩ haccepts
      · exact hname
    have hfresh : a.extras.any (·.1 == name) = false := by
      rw [sectionId?, hscope] at hmissing
      exact any_eq_false_of_lookup hmissing
    rw [tryAddSection, hfree]
    dsimp only [extrasOf?]
    rw [hfresh]
    exact ⟨_, _, rfl, rfl, rfl, by rw [kindNamed, hfree]; rfl, rfl⟩
  | kernel k =>
    obtain ⟨state, hk⟩ := h.exists_currentKernel hscope
    rw [sectionId?, hscope] at hmissing
    dsimp only at hmissing
    rw [hk, Option.bind_some] at hmissing
    rcases textOrData?_cases name with ⟨-, hname⟩ | ⟨-, hname⟩ | ⟨-, -, hname⟩
    · -- a kernel has its code from the start
      rw [hname] at hmissing
      cases hmissing
    · rw [hname] at hmissing
      have hdata : state.data = none := hmissing
      rw [tryAddSection, hname]
      dsimp only
      rw [hk]
      dsimp only
      rw [textOrDataSection, if_neg (by decide), hdata]
      exact ⟨_, _, rfl, rfl, rfl, by rw [kindNamed, hname]; rfl, rfl⟩
    · rw [hname] at hmissing
      rw [tryAddSection, hname]
      dsimp only [extrasOf?]
      rw [hk]
      dsimp only [Option.map_some]
      rw [any_eq_false_of_lookup hmissing]
      exact ⟨_, _, rfl, rfl, rfl, by rw [kindNamed, hname]; rfl, rfl⟩

/-- From `a`, the section of a name was opened in `b`. -/
structure Opened (a b : Assembler) (name : Bytes) : Prop where
  scope : b.scope = a.scope
  here : IsSectionOf b.sections a.scope name b.current
  again : ∀ id, IsSectionOf a.sections a.scope name id →
    b.current = id ∧ b.sections = a.sections

/-- **Opening a section** that is not refused leads to the section of the name. -/
theorem Consistent.opened_openSection (h : a.Consistent) (hnamed : a.WellNamed)
    (haccepts : ¬a.RefusesSection name) (place : Span) :
    ∃ b, a.openSection place name = .done b ∧ Opened a b name := by
  cases hid : a.sectionId? name with
  | some id =>
    have hsection := (h.sectionId?_eq_some_iff hnamed).mp hid
    refine ⟨_, openSection_of_isSectionOf h hnamed hsection place, rfl, ?_, ?_⟩
    · rw [sections_moveTo]
      exact hsection
    · intro other hother
      have hsame := (h.sectionId?_eq_some_iff hnamed).mpr hother
      exact ⟨Option.some.inj (hid.symm.trans hsame), sections_moveTo ..⟩
  | none =>
    obtain ⟨c, s, hopen, hsections, hs⟩ := openSection_of_missing h haccepts hid place
    refine ⟨_, hopen, rfl, ?_, ?_⟩
    · rw [sections_moveTo, hsections]
      exact ⟨s, List.getElem?_concat_length, hs⟩
    · intro other hother
      have hfound := (h.sectionId?_eq_some_iff hnamed).mpr hother
      cases hid.symm.trans hfound

end Assembler

/-! ## Directives -/

/-- The clause is a directive that opens the section of a name, without anything behind the name. -/
inductive Clause.OpensSection (place : Assembler.Place) (name : Bytes) : Clause → Prop
  | named {c d : Cursor} : Statement.noGarbage c = .ok ((), d) →
    OpensSection place name (.directive (.namedSection name) place c)
  | section {c d e : Cursor} : Assembler.sectionName c = .done (name, d) →
    Statement.noGarbage d = .ok ((), e) → OpensSection place name (.directive .section place c)

namespace Assembler

variable {a : Assembler} {name : Bytes} {place : Place} {x : Clause}

/-- What is done without reading gives the same from any cursor. -/
theorem run_lift {α : Type} (o : Outcome α) (c : Cursor) : (ArgReader.lift o).run c = o := by
  obtain ⟨reports, value⟩ := o
  cases value with
  | none => rfl
  | some v => simp [ArgReader.run, ArgReader.lift, Outcome.andThen, Outcome.done]

/-- Where nothing is left over, reading goes on behind the check for it. -/
theorem run_finish {α : Type} {c d : Cursor} (h : Statement.noGarbage c = .ok ((), d))
    (f : Unit → ArgReader α) : (ArgReader.finish >>= f).run c = (f ()).run d := by
  have hfinish : ArgReader.finish c = .done ((), d) := by
    rw [ArgReader.finish, ArgReader.scan, h]
    rfl
  rw [ArgReader.run_bind, hfinish]
  rfl

/-- Executing the directive is opening the section of its name. -/
theorem perform_of_opensSection (hx : x.OpensSection place name) :
    a.perform x = a.openSection place.name name := by
  cases hx with
  | named hend => exact (run_finish hend _).trans (run_lift _ _)
  | «section» hname hend =>
    refine (ArgReader.run_bind ..).trans ?_
    rw [hname]
    exact (run_finish hend _).trans (run_lift _ _)

/-- A directive opens its section, unless it is refused. -/
theorem Reachable.opened_after (h : Reachable a) (hx : x.OpensSection place name)
    (haccepts : ¬a.RefusesSection name) :
    (a.perform x).reports = [] ∧ Opened a (a.after x) name := by
  obtain ⟨b, hopen, hopened⟩ := h.consistent.opened_openSection h.wellNamed haccepts place.name
  rw [after, perform_of_opensSection hx, hopen]
  exact ⟨rfl, hopened⟩

/-- A section that is refused is reported at the name of the directive, and nothing else is. -/
theorem Reachable.reports_of_refuses (h : Reachable a) (hx : x.OpensSection place name)
    (hrefuses : a.RefusesSection name) : (a.perform x).reports
      = [(Problem.structural (.onlyInKernels name)).error place.name []] := by
  rw [perform_of_opensSection hx, openSection_of_refuses h.consistent h.wellNamed hrefuses]

/-- **A section opened by name is found again.** A directive opens the section of a name, in any
state of an assembly. It is refused exactly for code and data outside kernels, and reports nothing
else. Otherwise the assembly stays in its scope and stands in a section of that scope with that
name. After any further actions, a directive for the same name comes back to the same section when
the assembly is in the same scope, and the table does not grow; in any other scope it opens another
section. -/
theorem sections_found_by_name (h : Reachable a) (hx : x.OpensSection place name) :
    (a.perform x).reports = (if a.scope = .global ∧ (name = codeName ∨ name = dataName)
      then [(Problem.structural (.onlyInKernels name)).error place.name []] else []) ∧
    (¬(a.scope = .global ∧ (name = codeName ∨ name = dataName)) →
      let b := a.after x
      b.scope = a.scope ∧
      (∃ s, b.sections[b.current]? = some s ∧ s.scope = a.scope ∧ s.name = name) ∧
      ∀ l y place', Clause.OpensSection place' name y →
        let z := b.actAll l
        (z.scope = a.scope → (z.perform y).reports = [] ∧
          (z.after y).current = b.current ∧ (z.after y).sections = z.sections) ∧
        (z.scope ≠ a.scope → NoError (z.perform y).reports →
          (z.after y).current ≠ b.current)) := by
  refine ⟨?_, fun haccepts => ?_⟩
  · split
    · rename_i hrefuses
      exact h.reports_of_refuses hx hrefuses
    · rename_i haccepts
      exact (h.opened_after hx haccepts).1
  intro b
  obtain ⟨-, hb⟩ := h.opened_after hx haccepts
  refine ⟨hb.scope, ?_, fun l y place' hy => ?_⟩
  · obtain ⟨s, hs, hscope, -, hname⟩ := hb.here
    exact ⟨s, hs, hscope, hname⟩
  intro z
  have hreachable : Reachable b := h.clause x
  have hz : Reachable z := hreachable.actAll l
  -- the table of `z` still tells that the section of the name is where it was opened
  have hlater : IsSectionOf z.sections a.scope name b.current :=
    hb.here.mono (hreachable.consistent.extends_actAll l).sections
  refine ⟨fun hscope => ?_, fun hscope hno hsame => hscope ?_⟩
  · have hz_accepts : ¬z.RefusesSection name := by
      rw [RefusesSection, hscope]
      exact haccepts
    obtain ⟨hreports, hopened⟩ := hz.opened_after hy hz_accepts
    exact ⟨hreports, hopened.again b.current (hscope ▸ hlater)⟩
  · have hz_accepts : ¬z.RefusesSection name := by
      intro hrefuses
      rw [hz.reports_of_refuses hy hrefuses] at hno
      exact hno _ List.mem_cons_self rfl
    obtain ⟨-, hopened⟩ := hz.opened_after hy hz_accepts
    -- one section would belong to both scopes
    have hhere := hlater.mono (hz.consistent.extends_actAll [.clause y]).sections
    rw [← hsame] at hhere
    exact hopened.here.scope_unique hhere

/-- The data of a kernel is opened by its name, and once more after another kernel was made and its
data opened. In that other kernel the name stands for another section. -/
theorem sections_found_by_name_data :
    let a := ((ofOptions {}).addKernel [0x6b]).1
    let place : Place := ⟨⟨0, 0, 8⟩, ⟨0, 0, 14⟩⟩
    let x := Clause.directive .section place (.ofRange 0 (.ofString ".section .data") 9 14)
    let y := Clause.directive (.namedSection dataName) place (.ofRange 0 (.ofString ".data") 5 5)
    let b := a.after x
    let other := b.actAll [.addKernel [0x6d]]
    let back := b.actAll [.addKernel [0x6d], .clause y, .setKernel (.kernel 0)]
    (b.scope, b.current) = (.kernel 0, 2) ∧ (other.after y).current ≠ 2 ∧
      (back.after y).current = 2 ∧ (back.after y).sections = back.sections := by
  intro a place x y b other back
  have hx : x.OpensSection place dataName := .section rfl rfl
  have hy : y.OpensSection place dataName := .named rfl
  have ha : Reachable a := .addKernel [0x6b] (.start {})
  have haccepts : ¬(a.scope = .global ∧ (dataName = codeName ∨ dataName = dataName)) := by decide
  obtain ⟨-, hopened⟩ := sections_found_by_name ha hx
  obtain ⟨-, -, hlater⟩ := hopened haccepts
  refine ⟨rfl, ?_, (hlater _ y place hy).1 rfl |>.2⟩
  have hno : (other.perform y).reports = [] := rfl
  exact (hlater _ y place hy).2 (by decide) (hno ▸ noError_nil)

end Assembler

end CatalystAsm
