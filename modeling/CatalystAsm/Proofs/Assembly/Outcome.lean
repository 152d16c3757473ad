import CatalystAsm.Proofs.Statement.Place

/-!
# Outcomes and errors

Three statements about an outcome, all of which follow its parts one by one. `Outcome.Gives` is for
reading: whatever is given was given without an error. `Outcome.Settles` is for executing: an
outcome either leaves what was there before, or changes it without an error. `Outcome.Yields` is the
other way round: without an error something is given.
-/

namespace CatalystAsm

/-- No error is among the reports. -/
def NoError (reports : List Diagnostic) : Prop := ∀ d ∈ reports, d.severity ≠ .error

theorem noError_nil : NoError [] := fun _ hd => absurd hd List.not_mem_nil

/-- Reports without an error stay so one behind the other. -/
theorem NoError.append {r s : List Diagnostic} (hr : NoError r) (hs : NoError s) :
    NoError (r ++ s) := by
  intro d hd
  rcases List.mem_append.mp hd with hd | hd
  · exact hr d hd
  · exact hs d hd

/-- There is no error in two lists of reports just when there is none in either. -/
theorem noError_append_iff {r s : List Diagnostic} :
    NoError (r ++ s) ↔ NoError r ∧ NoError s := by
  constructor
  · intro h
    constructor
    · exact fun d hd => h d (List.mem_append_left s hd)
    · exact fun d hd => h d (List.mem_append_right r hd)
  · rintro ⟨hr, hs⟩
    exact hr.append hs

/-- That a number is cut is a warning, not an error. -/
theorem noError_rangeWarnings (bits : Nat) (v : UInt64) (span : Span) :
    NoError (Statement.rangeWarnings bits v span) := by
  intro d hd
  unfold Statement.rangeWarnings at hd
  split at hd
  · rw [List.mem_singleton.mp hd]
    show Severity.warning ≠ Severity.error
    decide
  · exact absurd hd List.not_mem_nil

theorem Problem.severity_error (p : Problem) (span : Span) (notes : List Note) :
    (p.error span notes).severity = .error := rfl

namespace Outcome

variable {α β : Type} {a : α} {P Q : α → Prop} {R : β → Prop} {o : Outcome α}

/-- Whenever an outcome has a value, the value satisfies `P` and no error was reported. -/
def Gives (P : α → Prop) (o : Outcome α) : Prop :=
  ∀ v, o.value = some v → P v ∧ NoError o.reports

/-- Whenever an outcome has a value, it is `a` again, or it satisfies `P` and no error was
reported. -/
def Settles (a : α) (P : α → Prop) (o : Outcome α) : Prop :=
  ∀ v, o.value = some v → v = a ∨ (P v ∧ NoError o.reports)

/-- Work that is done reports nothing beside its value. -/
theorem gives_done {v : α} (h : P v) : (done v).Gives P := by
  intro w hw
  cases hw
  exact ⟨h, noError_nil⟩

/-- Where there is no value, nothing is asked of it. -/
theorem gives_of_value_eq_none (h : o.value = none) : o.Gives P := by
  intro v hv
  rw [h] at hv
  cases hv

theorem gives_stop (d : Diagnostic) : (stop d : Outcome α).Gives P := gives_of_value_eq_none rfl

/-- A problem stops the work, so that nothing is asked of a value. -/
theorem gives_fail (p : Problem) (span : Span) : (fail p span : Outcome α).Gives P := gives_stop _

theorem Gives.mono (h : o.Gives P) (hPQ : ∀ v, P v → Q v) : o.Gives Q :=
  fun v hv => ⟨hPQ v (h v hv).1, (h v hv).2⟩

/-- Work goes on with the value, and its reports come behind the earlier ones. -/
theorem andThen_eq_of_value {f : α → Outcome β} {v : α} (h : o.value = some v) :
    o.andThen f = ⟨o.reports ++ (f v).reports, (f v).value⟩ := by
  rw [andThen, h]

/-- Work without a value does not go on. -/
theorem andThen_eq_of_value_eq_none {f : α → Outcome β} (h : o.value = none) :
    o.andThen f = ⟨o.reports, none⟩ := by
  rw [andThen, h]

/-- **Work in two parts**: when both have a value, the second one's satisfies what it gives, and no
error was reported in either. -/
theorem Gives.andThen {f : α → Outcome β} (ho : o.Gives P) (hf : ∀ v, P v → (f v).Gives R) :
    (o.andThen f).Gives R := by
  cases hv : o.value with
  | none =>
    rw [andThen_eq_of_value_eq_none hv]
    exact gives_of_value_eq_none rfl
  | some v =>
    obtain ⟨hP, herror⟩ := ho v hv
    rw [andThen_eq_of_value hv]
    intro w hw
    obtain ⟨hR, herror'⟩ := hf v hP w hw
    exact ⟨hR, herror.append herror'⟩

/-- Reports without an error let the work go on. -/
theorem gives_reports {ds : List Diagnostic} (h : NoError ds) :
    (⟨ds, some ()⟩ : Outcome Unit).Gives fun _ => True := fun _ _ => ⟨trivial, h⟩

/-- The value is the scanner's own, and no error comes with it. -/
theorem gives_ofScanned (x : Scanned α) : (ofScanned x).Gives fun v => x = .ok v := by
  cases x with
  | ok r => exact gives_done rfl
  | error s => exact gives_of_value_eq_none rfl

/-- Work that changes something without an error settles, whatever was there before. -/
theorem Gives.settles (h : o.Gives P) : o.Settles a P := fun v hv => .inr (h v hv)

/-- Without a value, what was there is left. -/
theorem settles_of_value_eq_none (h : o.value = none) : o.Settles a P :=
  (gives_of_value_eq_none h).settles

/-- A problem leaves what was there. -/
theorem settles_fail (p : Problem) (span : Span) : (fail p span : Outcome α).Settles a P :=
  (gives_fail p span).settles

/-- Reading before a change: when it stops nothing is changed, and when it goes on the change
decides. -/
theorem Gives.andThen_settles {b : β} {f : α → Outcome β} (ho : o.Gives P)
    (hf : ∀ v, P v → (f v).Settles b R) : (o.andThen f).Settles b R := by
  cases hv : o.value with
  | none =>
    rw [andThen_eq_of_value_eq_none hv]
    exact settles_of_value_eq_none rfl
  | some v =>
    obtain ⟨hP, herror⟩ := ho v hv
    rw [andThen_eq_of_value hv]
    intro w hw
    rcases hf v hP w hw with rfl | ⟨hR, herror'⟩
    · exact .inl rfl
    · exact .inr ⟨hR, herror.append herror'⟩

/-- What is left after an outcome that settles: what was there, or something that satisfies `P`. -/
theorem Settles.getD (h : o.Settles a P) (ha : P a) : P (o.value.getD a) := by
  cases hv : o.value with
  | none => exact ha
  | some v =>
    rcases h v hv with rfl | ⟨hP, -⟩
    · exact ha
    · exact hP

/-- An outcome that settles with an error leaves what was there. -/
theorem Settles.getD_eq (h : o.Settles a P) (herror : ∃ d ∈ o.reports, d.severity = .error) :
    o.value.getD a = a := by
  obtain ⟨d, hd, hseverity⟩ := herror
  cases hv : o.value with
  | none => rfl
  | some v =>
    rcases h v hv with rfl | ⟨-, hno⟩
    · rfl
    · exact absurd hseverity (hno d hd)

/-- Unless an error is reported, an outcome has a value that satisfies `P`. -/
def Yields (P : α → Prop) (o : Outcome α) : Prop :=
  NoError o.reports → ∃ v, o.value = some v ∧ P v

/-- Work that is done has its value. -/
theorem yields_done {v : α} (h : P v) : (done v).Yields P := fun _ => ⟨v, rfl, h⟩

/-- Work that stops does so with an error. -/
theorem yields_stop {d : Diagnostic} (h : d.severity = .error) : (stop d : Outcome α).Yields P :=
  fun hno => absurd h (hno d List.mem_cons_self)

/-- A problem is an error, so that a value need not follow. -/
theorem yields_fail (p : Problem) (span : Span) : (fail p span : Outcome α).Yields P :=
  yields_stop (p.severity_error span [])

/-- A scanner that gives no value reports an error. -/
theorem yields_ofScanned {scan : Cursor → Scanned α} (h : Statement.IsScanner scan) (c : Cursor) :
    (ofScanned (scan c)).Yields fun v => scan c = .ok v := by
  cases hscan : scan c with
  | ok r => exact yields_done rfl
  | error s =>
    obtain ⟨d, hreports, hd, -⟩ := ((h.stays c).of_eq_error hscan).exists_report
    rw [ofScanned, hreports]
    exact yields_stop hd

/-- **Work in two parts has a value** when neither part reports an error. -/
theorem Yields.andThen {f : α → Outcome β} (ho : o.Yields P) (hf : ∀ v, P v → (f v).Yields R) :
    (o.andThen f).Yields R := by
  intro hno
  cases hv : o.value with
  | none =>
    rw [andThen_eq_of_value_eq_none hv] at hno
    obtain ⟨v, hsome, -⟩ := ho hno
    cases hv.symm.trans hsome
  | some v =>
    rw [andThen_eq_of_value hv] at hno ⊢
    obtain ⟨hfirst, hrest⟩ := noError_append_iff.mp hno
    obtain ⟨w, hw, hP⟩ := ho hfirst
    obtain rfl := Option.some.inj (hv.symm.trans hw)
    exact hf v hP hrest

end Outcome

namespace ArgReader

variable {α β : Type} {P : α → Prop} {Q : β → Prop}

/-- Whatever a reader gives satisfies `P`, and no error was reported on the way to it. -/
def Gives (P : α → Prop) (r : ArgReader α) : Prop := ∀ c, (r c).Gives fun v => P v.1

/-- Executing what a reader reads leaves `a`, or changes it without an error to what satisfies
`P`. -/
def Settles (a : α) (P : α → Prop) (r : ArgReader α) : Prop := ∀ c, (r.run c).Settles a P

/-- Running a reader and then another one is running the second one from where the first one
ends. -/
theorem run_bind (r : ArgReader α) (f : α → ArgReader β) (c : Cursor) :
    (r >>= f).run c = (r c).andThen fun v => (f v.1).run v.2 := by
  show ((r c).andThen fun v => f v.1 v.2).andThen _ = _
  cases hv : (r c).value with
  | none =>
    rw [Outcome.andThen_eq_of_value_eq_none hv, Outcome.andThen_eq_of_value_eq_none hv]
    rfl
  | some v =>
    rw [Outcome.andThen_eq_of_value hv, Outcome.andThen_eq_of_value hv]
    cases hw : (f v.1 v.2).value with
    | none =>
      rw [Outcome.andThen_eq_of_value_eq_none rfl, run, Outcome.andThen_eq_of_value_eq_none hw]
    | some w =>
      rw [Outcome.andThen_eq_of_value rfl, run, Outcome.andThen_eq_of_value hw, List.append_assoc]

/-- A value that is known without reading comes with no report. -/
theorem gives_pure {v : α} (h : P v) : (pure v : ArgReader α).Gives P :=
  fun _ => Outcome.gives_done h

/-- One reader after the other: what the first one gives leads the second one to what it gives. -/
theorem Gives.bind {r : ArgReader α} {f : α → ArgReader β} (hr : r.Gives P)
    (hf : ∀ v, P v → (f v).Gives Q) : (r >>= f).Gives Q :=
  fun c => (hr c).andThen fun v hv => hf v.1 hv v.2

theorem Gives.mono {R : α → Prop} {r : ArgReader α} (h : r.Gives P) (hPR : ∀ v, P v → R v) :
    r.Gives R := fun c => (h c).mono fun v hv => hPR v.1 hv

/-- The value alone is as good as the value with the cursor. -/
theorem Gives.run {r : ArgReader α} (h : r.Gives P) (c : Cursor) : (r.run c).Gives P :=
  (h c).andThen fun _ hv => Outcome.gives_done hv

/-- A reader gives what its scanner gives, somewhere in the statement. -/
theorem gives_scan (f : Cursor → Scanned α) : (scan f).Gives fun v => ∃ c d, f c = .ok (v, d) :=
  fun c => (Outcome.gives_ofScanned (f c)).mono fun v hv => ⟨c, v.2, hv⟩

/-- A reader that only makes reports goes on, and no error is among them. -/
theorem gives_report {ds : List Diagnostic} (h : NoError ds) : (report ds).Gives fun _ => True :=
  fun _ _ _ => ⟨trivial, h⟩

/-- What is known without reading on is as good as if it had been read. -/
theorem gives_lift {o : Outcome α} (h : o.Gives P) : (lift o).Gives P :=
  fun _ => h.andThen fun _ hv => Outcome.gives_done hv

/-- A problem stops the reader, so that nothing is asked of a value. -/
theorem gives_fail (p : Problem) (span : Span) : (fail p span : ArgReader α).Gives P :=
  fun _ => Outcome.gives_fail p span

theorem gives_string : string.Gives fun _ => True := (gives_scan _).mono fun _ _ => trivial

/-- No error comes with the value of an absolute expression. -/
theorem gives_absolute (symbols : Resolver) : (absolute symbols).Gives fun _ => True :=
  (gives_scan _).mono fun _ _ => trivial

theorem gives_comma : comma.Gives fun _ => True := (gives_scan _).mono fun _ _ => trivial

theorem gives_requiredComma (what : String) : (requiredComma what).Gives fun _ => True :=
  (gives_scan _).mono fun _ _ => trivial

theorem gives_finish : finish.Gives fun _ => True := (gives_scan _).mono fun _ _ => trivial

theorem gives_atEnd : atEnd.Gives fun _ => True := fun _ => Outcome.gives_done trivial

/-- A number that does not fit in 32 bits comes with a warning, not with an error. -/
theorem gives_word (symbols : Resolver) : (word symbols).Gives fun _ => True := by
  refine (gives_scan (Statement.word symbols)).bind fun v hv => ?_
  obtain ⟨c, d, hread⟩ := hv
  have hwarnings : NoError v.2 := by
    unfold Statement.word at hread
    split at hread
    · cases hread
    · cases hread
      exact noError_rangeWarnings _ _ _
  exact (gives_report hwarnings).bind fun _ _ => gives_pure trivial

/-- A reader that gives a value settles with it. -/
theorem settles_pure {a v : α} (h : P v) : (pure v : ArgReader α).Settles a P := by
  intro c
  exact (Outcome.gives_done h).settles

/-- A reader that stops with a problem leaves what was there. -/
theorem settles_fail {a : α} (p : Problem) (span : Span) :
    (fail p span : ArgReader α).Settles a P := fun _ => Outcome.settles_of_value_eq_none rfl

/-- A change that settles does so too as the last step of a reader. -/
theorem settles_lift {a : α} {o : Outcome α} (h : o.Settles a P) : (lift o).Settles a P := by
  intro c v hv
  cases ho : o.value with
  | none =>
    rw [run, lift, Outcome.andThen_eq_of_value_eq_none ho] at hv
    cases hv
  | some w =>
    rw [run, lift, Outcome.andThen_eq_of_value ho] at hv ⊢
    cases hv
    rcases h v ho with rfl | ⟨hP, herror⟩
    · exact .inl rfl
    · exact .inr ⟨hP, (herror.append noError_nil).append noError_nil⟩

/-- Arguments that are read before a change: a fault in them changes nothing. -/
theorem Gives.bind_settles {r : ArgReader α} {b : β} {f : α → ArgReader β} (hr : r.Gives P)
    (hf : ∀ v, P v → (f v).Settles b Q) : (r >>= f).Settles b Q := by
  intro c
  rw [run_bind]
  exact (hr c).andThen_settles fun v hv => hf v.1 hv v.2

end ArgReader

end CatalystAsm
