import CatalystAsm.Proofs.Assembly.Frame
import CatalystAsm.Proofs.Assembly.Reachable
import Mathlib.Data.List.Induction

/-!
# Coming back to a kernel

A kernel that is left is come back to where it was left. What "where it was left" means is told by
the states on the way (`Assembler.trace`): it is the section of the last one that was in the kernel
(`Assembler.lastSection?`). That the numbers remembered in the state tell the same is an invariant
of steps (`Assembler.Remembers`), shown stage by stage: a new section changes no number that is
remembered, moving writes the number of the scope that is left, and filling in touches none.
-/

namespace CatalystAsm

/-- An operation that is executed without an error leaves its state. -/
theorem Attempt.yields_outcome {α : Type} (t : Attempt α) (place : Span) :
    (t.outcome place).Yields fun b => (∃ v, t.answer = .ok v) ∧ b = t.state := by
  unfold Attempt.outcome
  cases hanswer : t.answer with
  | error e =>
    intro hno
    exact absurd rfl (hno _ List.mem_cons_self)
  | ok v => exact Outcome.yields_done ⟨⟨v, rfl⟩, rfl⟩

theorem ArgReader.yields_lift {α : Type} {o : Outcome α} {P : α → Prop} (h : o.Yields P)
    (c : Cursor) : ((lift o).run c).Yields P :=
  (h.andThen (R := fun v => P v.1) fun _ hv => Outcome.yields_done hv).andThen
    fun _ hv => Outcome.yields_done hv

/-- A further section of a kernel is remembered apart from its code and the place to come back
to. -/
theorem KernelState.Remembers.places {k l : KernelState} {s : TableSection} {id : Nat}
    (h : k.Remembers l s id) : (l.code, l.saved) = (k.code, k.saved) := by
  have hcode : [l.code] = [k.code] ++ if s.kind = .code then [id] else [] := h.ids .code
  rw [h.saved]
  split at hcode
  · exact absurd (congrArg List.length hcode) (by simp)
  · rw [List.append_nil] at hcode
    rw [List.singleton_inj.mp hcode]

namespace Assembler

open ArgReader

/-! ## Actions and the states on the way -/

/-- What can be done to an assembly: a clause of a source, or an operation on sections and
kernels. -/
inductive Action where
  | clause (x : Clause)
  | addKernel (name : Bytes)
  | addSection (name : Bytes) (scope : Scope)
  | setKernel (scope : Scope)
  | setSection (id : Nat)

/-- The state after an action. -/
def act (a : Assembler) : Action → Assembler
  | .clause x => a.after x
  | .addKernel name => (a.addKernel name).1
  | .addSection name scope => (a.tryAddSection name scope).state
  | .setKernel scope => (a.trySetKernel scope).state
  | .setSection id => (a.trySetSection id).state

/-- The state after actions one after another. -/
def actAll (a : Assembler) (l : List Action) : Assembler := l.foldl act a

/-- The states on the way through actions, from the first one to the last one. -/
def trace (a : Assembler) : List Action → List Assembler
  | [] => [a]
  | x :: l => a :: (a.act x).trace l

/-- The section of the last state that is in a scope. -/
def lastSection? (k : Scope) (states : List Assembler) : Option Nat :=
  (states.filter (·.scope = k)).getLast?.map (·.current)

/-- The section where a scope begins: the data outside kernels, or the code of a kernel. -/
def firstSection? (a : Assembler) : Scope → Option Nat
  | .global => some globalData
  | .kernel i => a.kernels[i]?.map (·.code)

/-- The section that is gone to when a scope is gone to now, unless that is refused. -/
def resumed? (a : Assembler) (k : Scope) : Option Nat :=
  (a.trySetKernel k).result.toOption.map (·.1.current)

/-- The ways to go to a scope that exists: the operation, and the directives that leave all kernels
or name a kernel that was made before. -/
inductive SwitchesTo (a : Assembler) : Scope → Assembler → Prop
  | operation {k : Scope} : (a.trySetKernel k).answer = .ok () →
    SwitchesTo a k (a.act (.setKernel k))
  | main (place : Place) (c : Cursor) : NoError (a.perform (.directive .main place c)).reports →
    SwitchesTo a .global (a.act (.clause (.directive .main place c)))
  | kernel (place : Place) {c d : Cursor} {name : Bytes} {span : Span} {i : Nat} :
    Statement.expectName (.ofString "kernel name") c = .ok ((name, span), d) →
    a.kernelNames.lookup name = some i →
    NoError (a.perform (.directive .kernel place c)).reports →
    SwitchesTo a (.kernel i) (a.act (.clause (.directive .kernel place c)))

variable {a b c : Assembler} {k : Scope} {states : List Assembler}

theorem actAll_append (a : Assembler) (l m : List Action) :
    a.actAll (l ++ m) = (a.actAll l).actAll m := List.foldl_append

/-- One more action adds the state that it leads to. -/
theorem trace_concat (a : Assembler) (l : List Action) (x : Action) :
    a.trace (l ++ [x]) = a.trace l ++ [a.actAll (l ++ [x])] := by
  induction l generalizing a with
  | nil => rfl
  | cons y l ih => exact congrArg (a :: ·) (ih (a.act y))

/-- The last state of a scope is the newest one, if that is in the scope. -/
theorem lastSection?_concat : lastSection? k (states ++ [b])
    = if b.scope = k then some b.current else lastSection? k states := by
  unfold lastSection?
  by_cases hb : b.scope = k
  · simp [hb]
  · simp [hb]

/-- A scope that no state is in was not left. -/
theorem lastSection?_eq_none (h : ∀ s ∈ states, s.scope ≠ k) : lastSection? k states = none := by
  have hnone : states.filter (·.scope = k) = [] := by
    rw [List.filter_eq_nil_iff]
    intro s hs
    simpa using h s hs
  rw [lastSection?, hnone]
  rfl

/-- Clauses are actions. -/
theorem after_clauses (a : Assembler) (l : List Clause) :
    a.afterAll l = a.actAll (l.map .clause) := by
  rw [actAll, List.foldl_map]
  rfl

/-- Every action is a step in some scope. -/
theorem Consistent.stepIn_act (h : a.Consistent) (x : Action) :
    ∃ scope, StepIn scope a (a.act x) := by
  cases x with
  | clause x => exact ⟨_, h.step_after x⟩
  | addKernel name =>
    show ∃ scope, StepIn scope a (a.addKernel name).1
    rw [addKernel_eq]
    exact ⟨.global, (Grown.entered (.kernel name) rfl rfl).step⟩
  | addSection name scope =>
    exact ⟨scope, Attempt.Settles.step (h.settles_tryAddSection name scope)⟩
  | setKernel scope =>
    have hsettles := (h.settles_trySetKernel scope).mono (Q := Entered a.scope a)
      fun _ => Moved.entered
    exact ⟨_, Attempt.Settles.step hsettles⟩
  | setSection id =>
    have hsettles := (settles_trySetSection a id).mono (Q := Entered a.scope a)
      fun _ => Moved.entered
    exact ⟨_, Attempt.Settles.step hsettles⟩

/-! ## What is remembered of a scope -/

/-- Where a scope begins and where it is come back to; nothing for a kernel that does not exist. -/
def places? (a : Assembler) : Scope → Option (Nat × Nat)
  | .global => some (globalData, a.saved)
  | .kernel i => a.kernels[i]?.map fun s => (s.code, s.saved)

/-- A scope begins at the first of its two places. -/
theorem firstSection?_eq (a : Assembler) (k : Scope) :
    a.firstSection? k = (a.places? k).map (·.1) := by
  cases k with
  | global => rfl
  | kernel i =>
    show a.kernels[i]?.map _ = (a.kernels[i]?.map _).map _
    rw [Option.map_map]
    rfl

/-- A kernel that changes otherwise keeps its places. -/
theorem places?_modifyKernel {i : Nat} {f : KernelState → KernelState}
    (h : ∀ s, a.kernels[i]? = some s → ((f s).code, (f s).saved) = (s.code, s.saved)) (k : Scope) :
    (a.modifyKernel i f).places? k = a.places? k := by
  cases k with
  | global => rfl
  | kernel j =>
    show (a.kernels.modify i f)[j]?.map _ = a.kernels[j]?.map _
    rw [List.getElem?_modify]
    cases hj : a.kernels[j]? with
    | none => rfl
    | some s =>
      by_cases hij : i = j
      · subst hij
        simpa using h s hj
      · simp [hij]

/-- A new section leaves the places of every scope alone; a new kernel begins in its code. -/
theorem Grown.places? {scope : Scope} (h : Grown scope a b) (k : Scope) :
    b.places? k = a.places? k ∨ (a.places? k = none ∧ ∃ id, b.places? k = some (id, id)) := by
  cases h with
  | same => exact .inl rfl
  | kernel name =>
    cases k with
    | global => exact .inl rfl
    | kernel i =>
      show (a.kernels ++ [_])[i]?.map _ = a.kernels[i]?.map _ ∨ a.kernels[i]?.map _ = none ∧
        ∃ id, (a.kernels ++ [_])[i]?.map _ = some (id, id)
      rcases Nat.lt_trichotomy i a.kernels.length with hlt | heq | hgt
      · exact .inl (by rw [List.getElem?_append_left hlt])
      · subst heq
        refine .inr ⟨by rw [List.getElem?_eq_none (Nat.le_refl _)]; rfl, a.sections.length, ?_⟩
        rw [List.getElem?_concat_length]
        rfl
      · refine .inl ?_
        rw [List.getElem?_eq_none (Nat.le_of_lt hgt), List.getElem?_eq_none]
        rw [List.length_append]
        exact hgt
  | @own i l s f hi hl hs hfits hf =>
    refine .inl (places?_modifyKernel (a := (a.newSection s).1) ?_ k)
    intro m hm
    obtain rfl := Option.some.inj (hl.symm.trans hm)
    exact hf.places
  | @config i l hi hl =>
    have hkeeps := places?_modifyKernel
      (a := (a.newSection { scope := .kernel i, kind := .config }).1) (i := i)
      (f := fun s => { s with config := some a.sections.length }) (fun _ _ => rfl) k
    exact .inl hkeeps
  | extra => exact .inl rfl

theorem Grown.current_eq {scope : Scope} (h : Grown scope a b) : b.current = a.current := by
  cases h <;> rfl

/-- Filling in leaves where the assembly stands and the places of every scope alone. -/
theorem Filled.places? (h : Filled a b) (k : Scope) :
    b.places? k = a.places? k ∧ b.scope = a.scope ∧ b.current = a.current := by
  cases h <;> exact ⟨rfl, rfl, rfl⟩

/-- Saving writes the place to come back to for the current scope. -/
theorem places?_saveSection (a : Assembler) (k : Scope) : a.saveSection.places? k
    = (a.places? k).map fun p => (p.1, if a.scope = k then a.current else p.2) := by
  unfold saveSection
  cases hscope : a.scope with
  | global =>
    cases k with
    | global => rfl
    | kernel j =>
      show a.kernels[j]?.map _ = (a.kernels[j]?.map _).map _
      rw [Option.map_map]
      rfl
  | kernel i =>
    cases k with
    | global => rfl
    | kernel j =>
      show (a.kernels.modify i _)[j]?.map _ = (a.kernels[j]?.map _).map _
      rw [List.getElem?_modify]
      cases a.kernels[j]? with
      | none => rfl
      | some s => by_cases hij : i = j <;> simp [hij]

/-- Moving changes places only by remembering the section that is left. -/
theorem places?_moveTo (a : Assembler) (scope : Scope) (id : Nat) (k : Scope) :
    (a.moveTo scope id).places? k = a.saveSection.places? k := by
  cases k <;> rfl

/-! ## The invariant -/

/-- The states on the way end here, all of them are in scopes that exist, and every scope but the
current one is come back to where it was left, or where it begins when it was never entered. -/
structure Remembers (a : Assembler) (states : List Assembler) : Prop where
  consistent : a.Consistent
  last : lastSection? a.scope states = some a.current
  within : ∀ s ∈ states, (a.places? s.scope).isSome = true
  saved : ∀ k first saved, a.scope ≠ k → a.places? k = some (first, saved) →
    saved = (lastSection? k states).getD first

/-- At the start only the data outside kernels was entered. -/
theorem remembers_ofOptions (options : Options) :
    Remembers (ofOptions options) [ofOptions options] where
  consistent := consistent_ofOptions options
  last := rfl
  within s hs := by
    rw [List.mem_singleton.mp hs]
    rfl
  saved k first saved hscope hplaces := by
    cases k with
    | global => exact absurd rfl hscope
    | kernel i => cases hplaces

/-- The scope where the assembly stands exists. -/
theorem Consistent.isSome_places? (h : a.Consistent) : (a.places? a.scope).isSome = true := by
  cases hscope : a.scope with
  | global => rfl
  | kernel i =>
    obtain ⟨s, hs, howner⟩ := h.current
    have hlt := h.owners s (List.mem_of_getElem? hs) i (howner.trans hscope)
    show (a.kernels[i]?.map _).isSome = true
    rw [List.getElem?_eq_getElem hlt]
    rfl

/-- A step keeps where a scope begins. -/
theorem StepIn.places?_fst {scope : Scope} (h : StepIn scope a b) {p : Nat × Nat}
    (hplaces : a.places? k = some p) : ∃ later, b.places? k = some (p.1, later) := by
  obtain ⟨d, ⟨c, hgrown, hmoved⟩, hfilled, -⟩ := h
  have hc : c.places? k = some p := by
    rcases hgrown.places? k with hsame | ⟨hnone, -⟩
    · exact hsame.trans hplaces
    · rw [hplaces] at hnone
      cases hnone
  rw [(hfilled.places? k).1]
  cases hmoved with
  | same => exact ⟨p.2, hc⟩
  | move =>
    rw [places?_moveTo, places?_saveSection, hc]
    exact ⟨_, rfl⟩

/-- A new section does not change where scopes are come back to. -/
theorem Remembers.grown {scope : Scope} (h : Remembers a states) (hab : Grown scope a b)
    (hscope : a.scope ≠ k) {first saved : Nat} (hplaces : b.places? k = some (first, saved)) :
    saved = (lastSection? k states).getD first := by
  rcases hab.places? k with hsame | ⟨hnone, id, hnew⟩
  · exact h.saved k first saved hscope (hsame ▸ hplaces)
  · -- a kernel that was just made was never entered
    have hnever : lastSection? k states = none := by
      refine lastSection?_eq_none fun s hs heq => ?_
      have := h.within s hs
      rw [heq, hnone] at this
      cases this
    rw [hnew] at hplaces
    cases hplaces
    rw [hnever]
    rfl

/-- A step keeps the invariant. -/
theorem Remembers.step {scope : Scope} (h : Remembers a states) (hab : StepIn scope a b) :
    Remembers b (states ++ [b]) := by
  have hconsistent := h.consistent.step hab
  refine ⟨hconsistent, ?_, ?_, ?_⟩
  · rw [lastSection?_concat, if_pos rfl]
  · intro s hs
    rcases List.mem_append.mp hs with hs | hs
    · obtain ⟨p, hp⟩ := Option.isSome_iff_exists.mp (h.within s hs)
      obtain ⟨later, hlater⟩ := hab.places?_fst hp
      rw [hlater]
      rfl
    · rw [List.mem_singleton.mp hs]
      exact hconsistent.isSome_places?
  · intro k first saved hscope hplaces
    rw [lastSection?_concat, if_neg hscope]
    obtain ⟨d, ⟨c, hgrown, hmoved⟩, hfilled, -⟩ := hab
    obtain ⟨hfill, hscopeEq, -⟩ := hfilled.places? k
    rw [hfill] at hplaces
    rw [hscopeEq] at hscope
    cases hmoved with
    | same =>
      rw [hgrown.place.1] at hscope
      exact h.grown hgrown hscope hplaces
    | @move scope id =>
      rw [places?_moveTo, places?_saveSection] at hplaces
      obtain ⟨p, hp, heq⟩ := Option.map_eq_some_iff.mp hplaces
      cases heq
      by_cases hleft : c.scope = k
      · -- the scope that was left is come back to where it was left
        rw [if_pos hleft, hgrown.current_eq]
        rw [hgrown.place.1] at hleft
        rw [← hleft, h.last]
        rfl
      · rw [if_neg hleft]
        rw [hgrown.place.1] at hleft
        exact h.grown hgrown hleft hp

/-- **Whatever is done**, each scope is come back to where it was left. -/
theorem remembers_actAll (options : Options) (l : List Action) :
    Remembers ((ofOptions options).actAll l) ((ofOptions options).trace l) := by
  induction l using List.reverseRecOn with
  | nil => exact remembers_ofOptions options
  | append_singleton l x ih =>
    obtain ⟨scope, hstep⟩ := ih.consistent.stepIn_act x
    have hlast : (ofOptions options).actAll (l ++ [x]) = ((ofOptions options).actAll l).act x :=
      actAll_append _ l [x]
    rw [trace_concat, hlast]
    exact ih.step hstep

/-! ## Going to a scope -/

/-- A scope that exists is gone to at the place that is remembered for it. -/
theorem trySetKernel_of_places? {p : Nat × Nat} (hplaces : a.saveSection.places? k = some p) :
    a.trySetKernel k = ⟨a.moveTo k p.2, .ok ()⟩ := by
  unfold trySetKernel
  cases k with
  | global =>
    cases hplaces
    rfl
  | kernel i =>
    obtain ⟨state, hstate, heq⟩ := Option.map_eq_some_iff.mp hplaces
    cases heq
    dsimp only
    rw [hstate]

/-- A kernel that does not exist cannot be gone to. -/
theorem trySetKernel_of_places?_eq_none (hplaces : a.saveSection.places? k = none) :
    (a.trySetKernel k).answer = .error .kernelOutOfRange := by
  unfold trySetKernel
  cases k with
  | global => cases hplaces
  | kernel i =>
    have hnone : a.saveSection.kernels[i]? = none := Option.map_eq_none_iff.mp hplaces
    dsimp only
    rw [hnone]

/-- Going to another scope is going where it was left. -/
theorem Remembers.trySetKernel (h : Remembers a states) (hscope : a.scope ≠ k) {first : Nat}
    (hfirst : a.firstSection? k = some first) : a.trySetKernel k
      = ⟨a.moveTo k ((lastSection? k states).getD first), .ok ()⟩ := by
  rw [firstSection?_eq] at hfirst
  obtain ⟨p, hp, rfl⟩ := Option.map_eq_some_iff.mp hfirst
  rw [← h.saved k p.1 p.2 hscope hp]
  have hplaces : a.saveSection.places? k = some p := by
    rw [places?_saveSection, hp]
    simp only [Option.map_some, if_neg hscope]
  exact trySetKernel_of_places? hplaces

/-- A scope is resumed where it was left, or where it begins when it was never entered. -/
theorem Remembers.resumed? (h : Remembers a states) (hscope : a.scope ≠ k) {first : Nat}
    (hfirst : a.firstSection? k = some first) :
    a.resumed? k = some ((lastSection? k states).getD first) := by
  unfold Assembler.resumed?
  rw [h.trySetKernel hscope hfirst]
  rfl

/-- A scope can be gone to when it exists, and only then. -/
theorem trySetKernel_ok_iff : (a.trySetKernel k).answer = .ok () ↔
    ∃ first, a.firstSection? k = some first := by
  have hsaved := a.places?_saveSection k
  rw [firstSection?_eq]
  cases hplaces : a.places? k with
  | none =>
    rw [hplaces] at hsaved
    rw [trySetKernel_of_places?_eq_none hsaved]
    simp
  | some p =>
    rw [hplaces] at hsaved
    rw [trySetKernel_of_places? hsaved]
    simp

/-- However a scope is gone to, it is the operation that goes there. -/
theorem SwitchesTo.eq (h : SwitchesTo a k b) :
    (a.trySetKernel k).answer = .ok () ∧ b = (a.trySetKernel k).state := by
  have hvalue {o : Outcome Assembler} (ho : o.Yields fun b =>
      (∃ v, (a.trySetKernel k).answer = .ok v) ∧ b = (a.trySetKernel k).state)
      (hno : NoError o.reports) :
      (a.trySetKernel k).answer = .ok () ∧ o.value.getD a = (a.trySetKernel k).state := by
    obtain ⟨v, hv, ⟨_, hok⟩, rfl⟩ := ho hno
    exact ⟨hok, by rw [hv]; rfl⟩
  cases h with
  | operation hok => exact ⟨hok, rfl⟩
  | main place c hno =>
    refine hvalue ?_ hno
    show ((finish >>= fun _ => lift ((a.trySetKernel .global).outcome place.name)).run c).Yields _
    rw [run_bind]
    refine (Outcome.yields_ofScanned .noGarbage c).andThen fun v _ => ?_
    exact yields_lift (Attempt.yields_outcome _ _) v.2
  | @kernel place c d name span i hname hlookup hno =>
    refine hvalue ?_ hno
    have hopen : a.openKernel place.name name
        = (a.trySetKernel (.kernel i)).outcome place.name := by
      unfold openKernel
      rw [hlookup]
    show ((ArgReader.name "kernel name" >>= fun n => finish >>= fun _ =>
      lift (a.openKernel place.name n.1)).run c).Yields _
    rw [run_bind]
    refine (Outcome.yields_ofScanned
      (.expectName (.ofString "kernel name")) c).andThen fun v hv => ?_
    obtain rfl := Except.ok.inj (hname.symm.trans hv)
    rw [run_bind]
    refine (Outcome.yields_ofScanned .noGarbage d).andThen fun w _ => ?_
    rw [hopen]
    exact yields_lift (Attempt.yields_outcome _ _) w.2

/-! ## Actions elsewhere -/

/-- Where a scope begins does not change. -/
theorem Consistent.firstSection?_actAll (h : a.Consistent) {first : Nat}
    (hfirst : a.firstSection? k = some first) (m : List Action) :
    (a.actAll m).firstSection? k = some first := by
  induction m generalizing a with
  | nil => exact hfirst
  | cons x m ih =>
    obtain ⟨scope, hstep⟩ := h.stepIn_act x
    refine ih (h.step hstep) ?_
    rw [firstSection?_eq] at hfirst ⊢
    obtain ⟨p, hp, rfl⟩ := Option.map_eq_some_iff.mp hfirst
    obtain ⟨later, hlater⟩ := hstep.places?_fst hp
    rw [hlater]
    rfl

/-- States outside a scope do not change where it was left. -/
theorem lastSection?_trace_append (a : Assembler) (l m : List Action)
    (h : ∀ b ∈ (a.actAll l).trace m, b.scope ≠ k) :
    lastSection? k (a.trace (l ++ m)) = lastSection? k (a.trace l) := by
  induction m using List.reverseRecOn with
  | nil => rw [List.append_nil]
  | append_singleton m x ih =>
    rw [trace_concat] at h
    have hlast := h _ (List.mem_append_right _ (List.mem_singleton_self _))
    rw [← actAll_append, ← List.append_assoc] at hlast
    rw [← List.append_assoc, trace_concat, lastSection?_concat, if_neg hlast]
    exact ih fun b hb => h b (List.mem_append_left _ hb)

theorem mem_trace (a : Assembler) (l : List Action) : a ∈ a.trace l := by
  cases l with
  | nil => exact List.mem_singleton_self a
  | cons x l => exact List.mem_cons_self

theorem actAll_mem_trace (a : Assembler) (l : List Action) : a.actAll l ∈ a.trace l := by
  induction l generalizing a with
  | nil => exact List.mem_singleton_self a
  | cons x l ih => exact List.mem_cons_of_mem a (ih (a.act x))

/-- **A kernel is come back to where it was left.** Take the state after any actions; statements of
a source are actions too. Going to a scope is refused only when there is no such kernel. Otherwise,
whether by the operation or by a directive, another scope than the current one is entered at the
section where it was left last, or where it begins if it was never entered. What is done while the
assembly is elsewhere does not change that section. -/
theorem switching_resumes (options : Options) (l : List Action) (k : Scope) :
    let a := (ofOptions options).actAll l
    let left? := lastSection? k ((ofOptions options).trace l)
    (∀ c, (a.statement c).1 = a.actAll ((Clause.ofStatement c).map .clause)) ∧
    ((a.trySetKernel k).answer = .ok () ↔ ∃ first, a.firstSection? k = some first) ∧
    (∀ b, SwitchesTo a k b → a.scope ≠ k → b.scope = k ∧
      ∃ first, a.firstSection? k = some first ∧ b.current = left?.getD first) ∧
    ∀ m first, a.firstSection? k = some first → (∀ b ∈ a.trace m, b.scope ≠ k) →
      (a.actAll m).resumed? k = a.resumed? k := by
  intro a left?
  have ha : Remembers a ((ofOptions options).trace l) := remembers_actAll options l
  refine ⟨?_, trySetKernel_ok_iff, ?_, ?_⟩
  · intro c
    rw [(statement_eq a c).1, after_clauses]
  · intro b hswitch hscope
    obtain ⟨hok, rfl⟩ := hswitch.eq
    obtain ⟨first, hfirst⟩ := trySetKernel_ok_iff.mp hok
    rw [ha.trySetKernel hscope hfirst]
    exact ⟨rfl, first, hfirst, rfl⟩
  · intro m first hfirst hothers
    -- before and after the further actions, the scope was left at the same place
    have hz := remembers_actAll options (l ++ m)
    rw [actAll_append] at hz
    have hend : (a.actAll m).scope ≠ k := hothers _ (actAll_mem_trace a m)
    have hstart : a.scope ≠ k := hothers a (mem_trace a m)
    rw [hz.resumed? hend (ha.consistent.firstSection?_actAll hfirst m), ha.resumed? hstart hfirst,
      lastSection?_trace_append _ l m hothers]

/-- A kernel with an extra section is left for another one, which gets an extra section too. -/
theorem switching_resumes_extra_section :
    let l : List Action := [.addKernel [0x61], .addSection [0x78] (.kernel 0), .addKernel [0x62],
      .addSection [0x79] .global, .addSection [0x7a] (.kernel 1)]
    let a := (ofOptions {}).actAll l
    let b := a.act (.setKernel (.kernel 0))
    a.scope = .kernel 1 ∧ b.scope = .kernel 0 ∧ b.current = 2 ∧
      (a.actAll [.setKernel .global, .setSection 3]).resumed? (.kernel 0) = some 2 := by
  intro l a b
  obtain ⟨-, hok, hswitch, hothers⟩ := switching_resumes {} l (.kernel 0)
  have hother : a.scope ≠ .kernel 0 := by decide
  obtain ⟨hscope, first, hfirst, hcurrent⟩ :=
    hswitch b (.operation (hok.mpr ⟨1, rfl⟩)) hother
  have hlater := hothers [.setKernel .global, .setSection 3] 1 rfl (by decide)
  exact ⟨rfl, hscope, hcurrent, hlater⟩

end Assembler

end CatalystAsm
