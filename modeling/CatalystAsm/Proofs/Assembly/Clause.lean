import CatalystAsm.Proofs.Assembly.KernelDirective

/-!
# The clauses of a source

A statement is a row of clauses: labels, and then an assignment, a directive or something that is
refused. Which clauses a statement has depends on its text alone. Executing the statement is
executing its clauses one after another, so what holds of every clause holds of every source.
-/

namespace CatalystAsm

/-- A part of a statement that is executed on its own. -/
inductive Clause where
  | label (name : Bytes) (isName : IsName name) (span : Span)
  /-- a definition by the expression at the cursor -/
  | assignment (name : Bytes) (isName : IsName name) (span : Span) (c : Cursor)
  | directive (d : Directive) (place : Assembler.Place) (c : Cursor)
  | kernelDirective (d : KernelDirective) (place : Assembler.Place) (c : Cursor)
  /-- text that is no clause of any other kind -/
  | refused (p : Problem) (span : Span)

namespace Assembler

/-- Executes a clause. -/
def perform (a : Assembler) : Clause → Outcome Assembler
  | .label name _ span => a.defineLabel name span
  | .assignment name _ span c => (a.assign name span).run c
  | .directive d place c => a.execute d place c
  | .kernelDirective d place c => a.executeKernel d place c
  | .refused p span => .fail p span

/-- The state after a clause. -/
def after (a : Assembler) (x : Clause) : Assembler := (a.perform x).value.getD a

/-- The state after clauses one after another. -/
def afterAll (a : Assembler) (l : List Clause) : Assembler := l.foldl after a

/-- The reports about clauses one after another. -/
def reportsAll (a : Assembler) : List Clause → List Diagnostic
  | [] => []
  | x :: l => (a.perform x).reports ++ (a.after x).reportsAll l

end Assembler

namespace Clause

/-- The directive of a name, without the dot. -/
def ofDirective (name : Bytes) (place : Assembler.Place) (c : Cursor) : Clause :=
  match Directive.ofName? name, KernelDirective.ofName? name with
  | some d, _ => .directive d place c
  | none, some d => .kernelDirective d place c
  | none, none => .refused (.unknownDirective name) place.name

/-- The clauses of the statement at the cursor. -/
def ofStatement (c : Cursor) : List Clause :=
  let start := c.skipBlanks
  let stmt := start.spanTo start.toLimit
  if start.atLimit then []
  else
    match hn : Statement.name? start with
    | none => [.refused .expectedStatement stmt]
    | some (name, d) =>
      let span := start.spanTo d
      match _hl : d.skipBlanks.eat? 0x3a with
      | some e => .label name (isName_of_name? hn) span :: ofStatement e
      | none =>
        match Assembler.afterAssignment? d.skipBlanks with
        | some e => [.assignment name (isName_of_name? hn) span e]
        | none =>
          match Assembler.directiveName? name with
          | none => [.refused .instruction stmt]
          | some n => [ofDirective n ⟨span, stmt⟩ d.skipBlanks]
termination_by c.rest.length
decreasing_by
  have := Cursor.length_rest_eat? _hl
  have := d.length_rest_skipBlanks
  have : d.rest.length < c.skipBlanks.rest.length := Statement.length_rest_name? hn
  have := c.length_rest_skipBlanks
  omega

/-- A blank statement has no clauses. -/
theorem ofStatement_of_atLimit {c : Cursor} (h : c.skipBlanks.atLimit = true) :
    ofStatement c = [] := by
  rw [ofStatement, if_pos h]

/-- A statement that does not begin with a name is refused as a whole. -/
theorem ofStatement_of_name?_eq_none {c : Cursor} (hlimit : ¬c.skipBlanks.atLimit = true)
    (hn : Statement.name? c.skipBlanks = none) : ofStatement c
      = [.refused .expectedStatement (c.skipBlanks.spanTo c.skipBlanks.toLimit)] := by
  rw [ofStatement, if_neg hlimit]
  split
  · rfl
  · rename_i hsome
    cases hn.symm.trans hsome

/-- What follows the name that a statement begins with. -/
theorem ofStatement_of_name? {c d : Cursor} {name : Bytes} (hlimit : ¬c.skipBlanks.atLimit = true)
    (hn : Statement.name? c.skipBlanks = some (name, d)) :
    ofStatement c = match d.skipBlanks.eat? 0x3a with
      | some e => .label name (isName_of_name? hn) (c.skipBlanks.spanTo d) :: ofStatement e
      | none =>
        match Assembler.afterAssignment? d.skipBlanks with
        | some e => [.assignment name (isName_of_name? hn) (c.skipBlanks.spanTo d) e]
        | none =>
          match Assembler.directiveName? name with
          | none => [.refused .instruction (c.skipBlanks.spanTo c.skipBlanks.toLimit)]
          | some n => [ofDirective n ⟨c.skipBlanks.spanTo d,
              c.skipBlanks.spanTo c.skipBlanks.toLimit⟩ d.skipBlanks] := by
  rw [ofStatement, if_neg hlimit]
  split
  · rename_i hnone
    cases hn.symm.trans hnone
  · rename_i hsome
    cases hn.symm.trans hsome
    dsimp only
    split <;> rename_i hl <;> rw [hl]

/-- The clauses of a source, as far as it is read. -/
def ofFile (f : SourceFile) (cancelled : Option Nat) : List Clause :=
  (Assembly.reached f cancelled).flatMap ofStatement

end Clause

namespace Assembler

open ArgReader

variable {a : Assembler}

/-! ## Statements are their clauses -/

theorem afterAll_append (a : Assembler) (l m : List Clause) :
    a.afterAll (l ++ m) = (a.afterAll l).afterAll m := List.foldl_append

/-- The reports about clauses are those about the first part and then those about the second. -/
theorem reportsAll_append (a : Assembler) (l m : List Clause) :
    a.reportsAll (l ++ m) = a.reportsAll l ++ (a.afterAll l).reportsAll m := by
  induction l generalizing a with
  | nil => rfl
  | cons x l ih =>
    show (a.perform x).reports ++ (a.after x).reportsAll (l ++ m) = _
    rw [ih, ← List.append_assoc]
    rfl

theorem filterMap_report? (ds : List Diagnostic) :
    (ds.map Event.report).filterMap Event.report? = ds := by
  rw [List.filterMap_map]
  exact List.filterMap_some

/-- A statement of one clause. -/
theorem settle_perform (a : Assembler) (x : Clause) :
    (a.settle (a.perform x)).1 = a.afterAll [x] ∧
      (a.settle (a.perform x)).2.filterMap Event.report? = a.reportsAll [x] := by
  refine ⟨rfl, ?_⟩
  show ((a.perform x).reports.map Event.report).filterMap Event.report? = _
  rw [filterMap_report?]
  exact (List.append_nil _).symm

/-- Executing the clause of a directive is executing the directive. -/
theorem perform_ofDirective (a : Assembler) (name : Bytes) (place : Place) (c : Cursor) :
    a.perform (.ofDirective name place c) = a.directive name place c := by
  unfold Clause.ofDirective directive
  cases Directive.ofName? name with
  | some d => rfl
  | none => cases KernelDirective.ofName? name <;> rfl

/-- A statement is executed clause by clause. -/
theorem statement_eq (a : Assembler) (c : Cursor) :
    (a.statement c).1 = a.afterAll (Clause.ofStatement c) ∧
      (a.statement c).2.filterMap Event.report? = a.reportsAll (Clause.ofStatement c) := by
  fun_induction statement a c with
  | case1 a c start hlimit =>
    rw [Clause.ofStatement_of_atLimit hlimit]
    exact ⟨rfl, rfl⟩
  | case2 a c start stmt hlimit hn =>
    rw [Clause.ofStatement_of_name?_eq_none hlimit hn]
    exact settle_perform a (.refused .expectedStatement stmt)
  | case3 a c start hlimit name d hn span e hl b events hb z more hz ih =>
    rw [Clause.ofStatement_of_name? hlimit hn, hl]
    obtain ⟨hfirst, hreports⟩ := settle_perform a (.label name (isName_of_name? hn) span)
    obtain ⟨hrest, hmore⟩ := ih
    rw [hz] at hrest hmore
    change (a.settle (a.defineLabel name span)).1 = _ at hfirst
    change (a.settle (a.defineLabel name span)).2.filterMap _ = _ at hreports
    rw [hb] at hfirst hreports
    obtain rfl : b = a.after (.label name (isName_of_name? hn) span) := hfirst
    refine ⟨hrest, ?_⟩
    show (events ++ more).filterMap Event.report? = _
    rw [List.filterMap_append, hreports, hmore]
    exact (reportsAll_append a [.label name (isName_of_name? hn) span] _).symm
  | case4 a c start hlimit name d hn span hl e he =>
    rw [Clause.ofStatement_of_name? hlimit hn, hl, he]
    exact settle_perform a (.assignment name (isName_of_name? hn) span e)
  | case5 a c start stmt hlimit name d hn hl he hd =>
    rw [Clause.ofStatement_of_name? hlimit hn, hl, he, hd]
    exact settle_perform a (.refused .instruction stmt)
  | case6 a c start stmt hlimit name d hn span hl he n hd b events hb =>
    rw [Clause.ofStatement_of_name? hlimit hn, hl, he, hd]
    have hone := settle_perform a (.ofDirective n ⟨span, stmt⟩ d.skipBlanks)
    rw [perform_ofDirective, hb] at hone
    exact hone

/-- Statements are executed clause by clause. -/
theorem statements_eq (a : Assembler) (l : List Cursor) :
    (a.statements l).1 = a.afterAll (l.flatMap Clause.ofStatement) ∧
      (a.statements l).2.filterMap Event.report? = a.reportsAll (l.flatMap Clause.ofStatement) := by
  induction l generalizing a with
  | nil => exact ⟨rfl, rfl⟩
  | cons c l ih =>
    obtain ⟨hstate, hreports⟩ := statement_eq a c
    obtain ⟨hrest, hmore⟩ := ih (a.statement c).1
    rw [List.flatMap_cons, afterAll_append, reportsAll_append, ← hstate]
    refine ⟨hrest, ?_⟩
    show ((a.statement c).2 ++ ((a.statement c).1.statements l).2).filterMap Event.report? = _
    rw [List.filterMap_append, hreports, hmore]

end Assembler

/-- A source is executed clause by clause. -/
theorem Assembly.ofFile_eq (options : Options) (f : SourceFile) (cancelled : Option Nat) :
    (ofFile options f cancelled).state
        = (Assembler.ofOptions options).afterAll (Clause.ofFile f cancelled) ∧
      (ofFile options f cancelled).reports
        = (Assembler.ofOptions options).reportsAll (Clause.ofFile f cancelled) :=
  Assembler.statements_eq _ _

/-- A source that is assembled makes no error. -/
theorem Assembly.noError_of_succeeded {r : Assembly} (h : r.succeeded = true) :
    NoError r.reports := by
  intro d hd herror
  obtain ⟨e, he, hreport⟩ := List.mem_filterMap.mp hd
  have hnone : r.events.any Event.isError = false := by
    have := (Bool.and_eq_true_iff.mp h).2
    exact Bool.not_eq_true' _ ▸ this
  have hsome : r.events.any Event.isError = true := by
    refine List.any_eq_true.mpr ⟨e, he, ?_⟩
    rw [Event.isError, hreport]
    exact beq_iff_eq.mpr herror
  rw [hnone] at hsome
  cases hsome

namespace Assembler

variable {a : Assembler}

/-! ## What a clause does -/

/-- **A clause leaves the state alone or makes a step without an error.** -/
theorem Consistent.settles_perform (h : a.Consistent) (x : Clause) :
    (a.perform x).Settles a (Step a) := by
  cases x with
  | label name isName span =>
    exact ((h.gives_defineLabel isName span).mono fun _ => Filled.step).settles
  | assignment name isName span c => exact h.settles_assign isName span c
  | directive d place c => exact h.settles_execute d place c
  | kernelDirective d place c => exact h.settles_executeKernel d place c
  | refused p span => exact Outcome.settles_fail p span

/-- **Every clause is a step** of the assembly. -/
theorem Consistent.step_after (h : a.Consistent) (x : Clause) : Step a (a.after x) :=
  (h.settles_perform x).getD (Step.refl a)

/-- An invariant of steps between consistent states holds after any clauses. -/
theorem Consistent.afterAll_induction (h : a.Consistent) {P : Assembler → Prop} (ha : P a)
    (hstep : ∀ b c, b.Consistent → P b → Step b c → P c) (l : List Clause) :
    (a.afterAll l).Consistent ∧ P (a.afterAll l) := by
  refine List.foldlRecOn (motive := fun b => b.Consistent ∧ P b) l after ⟨h, ha⟩ ?_
  rintro b ⟨hb, hP⟩ x -
  exact ⟨hb.step (hb.step_after x), hstep b _ hb hP (hb.step_after x)⟩

theorem Consistent.afterAll (h : a.Consistent) (l : List Clause) : (a.afterAll l).Consistent :=
  (h.afterAll_induction trivial (P := fun _ => True) (fun _ _ _ _ _ => trivial) l).1

end Assembler

end CatalystAsm
