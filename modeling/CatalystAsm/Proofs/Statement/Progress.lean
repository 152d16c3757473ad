import CatalystAsm.Proofs.Statement.Place

/-!
# Progress of reading

A reader of arguments ends with a value and no error or with one error and no value, and leaves the
cursor in the statement, not before the place where it began (`Once`). A value has a byte in it
that is not blank (`Consuming`). So a list of values is not longer than the number of such bytes
(`length_items_le`), which is what bounds the loops over arguments.
-/

namespace CatalystAsm

namespace Cursor

variable {c d e : Cursor}

/-! ## The text between two places -/

/-- What is left is the text up to a later place and what is left there. -/
theorem LeadsTo.rest_eq (h : c.LeadsTo d) : c.rest = c.sliceTo d ++ d.rest := by
  obtain ⟨n, -, rfl⟩ := h
  have hoff : (c.advance n).off - c.off = n := Nat.add_sub_cancel_left c.off n
  rw [sliceTo, hoff]
  exact (List.take_append_drop n c.rest).symm

/-- The text between two places is made of the texts up to and from a place between them. -/
theorem LeadsTo.sliceTo_eq (hcd : c.LeadsTo d) (hde : d.LeadsTo e) :
    c.sliceTo e = c.sliceTo d ++ d.sliceTo e := by
  have hc := hcd.rest_eq
  rw [hde.rest_eq, ← List.append_assoc, (hcd.trans hde).rest_eq] at hc
  exact List.append_cancel_right hc

/-- There is a byte between the two places that is not blank. -/
def Consumes (c d : Cursor) : Prop := ∃ b ∈ c.sliceTo d, isBlank b = false

/-- What is read behind blanks begins with a byte that is not blank. -/
theorem consumes_of_skipBlanks (h : c.skipBlanks.LeadsTo d)
    (hlt : d.rest.length < c.skipBlanks.rest.length) : c.Consumes d := by
  have hrest := h.rest_eq
  cases hslice : c.skipBlanks.sliceTo d with
  | nil =>
    rw [hslice, List.nil_append] at hrest
    rw [hrest] at hlt
    exact absurd hlt (Nat.lt_irrefl _)
  | cons b slice =>
    refine ⟨b, ?_, isBlank_of_skipBlanks (by rw [hrest, hslice]; rfl)⟩
    rw [c.leadsTo_skipBlanks.sliceTo_eq h, hslice]
    exact List.mem_append_right _ List.mem_cons_self

/-- How many bytes of a text are not blank. -/
def nonBlanks (b : Bytes) : Nat := b.countP fun x => !isBlank x

/-- Moving on does not add bytes that are not blank. -/
theorem nonBlanks_le (h : c.LeadsTo d) : nonBlanks d.rest ≤ nonBlanks c.rest := by
  rw [h.rest_eq, nonBlanks, nonBlanks, List.countP_append]
  exact Nat.le_add_left _ _

/-- Moving past a byte that is not blank leaves fewer of them. -/
theorem nonBlanks_lt (h : c.LeadsTo d) (hcd : c.Consumes d) :
    nonBlanks d.rest < nonBlanks c.rest := by
  obtain ⟨b, hb, hblank⟩ := hcd
  have hpos : 0 < (c.sliceTo d).countP fun x => !isBlank x :=
    List.countP_pos_iff.mpr ⟨b, hb, by simp [hblank]⟩
  rw [h.rest_eq, nonBlanks, nonBlanks, List.countP_append]
  omega

end Cursor

namespace Statement

open Cursor

variable {α : Type} {c d : Cursor} {symbols : Resolver} {scan : Cursor → Scanned α}

/-! ## What values consume -/

/-- Every value that the scanner gives has a byte in it that is not blank. -/
def Consuming (scan : Cursor → Scanned α) : Prop :=
  ∀ {c d v}, scan c = .ok (v, d) → c.LeadsTo d ∧ c.Consumes d

/-- Every expression has a byte that is not blank. -/
theorem consuming_expression (symbols : Resolver) : Consuming (expression symbols) := by
  intro c d v h
  refine ⟨((stays_expression symbols c).of_eq_ok h).1, ?_⟩
  unfold expression at h
  dsimp only at h
  split at h
  · cases h
  · rename_i hlt hbinary
    cases h
    exact consumes_of_skipBlanks ((parses_binary symbols 0 _).of_eq_ok hbinary) hlt

/-- Every absolute expression has a byte that is not blank. -/
theorem consuming_absolute (symbols : Resolver) : Consuming (absolute symbols) := by
  intro c d v h
  unfold absolute at h
  split at h
  · cases h
  · rename_i hexpression
    split at h
    · cases h
    · cases h
      exact consuming_expression symbols hexpression

/-- Every number of 32 bits has a byte that is not blank. -/
theorem consuming_word (symbols : Resolver) : Consuming (word symbols) := by
  intro c d v h
  unfold word at h
  split at h
  · cases h
  · rename_i habsolute
    cases h
    exact consuming_absolute symbols habsolute

/-- Every string has a byte that is not blank. -/
theorem consuming_quotedString : Consuming quotedString := by
  intro c d v h
  refine ⟨((stays_quotedString c).of_eq_ok h).1, ?_⟩
  unfold quotedString at h
  dsimp only at h
  split at h
  · cases h
  · rename_i hopen
    have hbody := length_rest_stringBody h
    have hquote := length_rest_eat? hopen
    refine consumes_of_skipBlanks ?_ (by omega)
    exact ((stays_stringBody (.refl _) (leadsTo_eat? hopen)).of_eq_ok h).1

/-- Every name has a byte that is not blank. -/
theorem consuming_expectName (what : Bytes) : Consuming (expectName what) := by
  intro c d v h
  refine ⟨((stays_expectName what c).of_eq_ok h).1, ?_⟩
  unfold expectName at h
  dsimp only at h
  split at h
  · cases h
  · rename_i hname
    cases h
    exact consumes_of_skipBlanks (leadsTo_name? hname) (length_rest_name? hname)

/-- **A list of values is not longer than its text**: each of them takes a byte that is not
blank. -/
theorem length_items_le (hscan : Consuming scan)
    (shorter : ∀ {c d v}, scan c = .ok (v, d) → d.rest.length < c.rest.length) (open_ : Bool)
    (c : Cursor) : (items scan shorter open_ c).1.length ≤ nonBlanks c.rest := by
  have hitem : ∀ {c d v}, scan c = .ok (v, d) → nonBlanks d.rest + 1 ≤ nonBlanks c.rest :=
    fun h => nonBlanks_lt (hscan h).1 (hscan h).2
  fun_induction items scan shorter open_ c with
  | case1 c _ => exact Nat.zero_le _
  | case2 c _ s _ => exact Nat.zero_le _
  | case3 c _ v d hv s _ => exact Nat.le_of_add_left_le (hitem hv)
  | case4 c _ v d hv => exact Nat.le_of_add_left_le (hitem hv)
  | case5 c _ v d hv e hcomma rest stop hitems ih =>
    -- the comma and the rest of the list come behind the item
    have hlt := hitem hv
    have hle : nonBlanks e.rest ≤ nonBlanks d.rest :=
      nonBlanks_le ((stays_comma d).of_eq_ok hcomma).1
    rw [hitems] at ih
    show rest.length + 1 ≤ _
    dsimp only at ih
    omega

/-! ## Readers -/

/-- Where a scanner leaves the cursor. -/
def left : Scanned α → Cursor
  | .ok r => r.2
  | .error s => s.cursor

/-- The reader that reads with a scanner comes to an end once: with a value and no error, or with
one error and no value. Besides it makes at most the given number of reports. -/
structure Once {β : Type} (scan : Cursor → Scanned α) (reader : ArgReader β) (others : Nat)
    (c : Cursor) : Prop where
  /-- the value goes with the cursor that the scanner leaves -/
  value : (reader c).value.map (·.2) = (scan c).toOption.map (·.2)
  errors : (reader c).reports.countP (·.severity = .error)
    = if (reader c).value.isSome then 0 else 1
  warnings : (reader c).reports.countP (·.severity ≠ .error) ≤ others
  /-- the cursor does not go back, and stays in the statement -/
  file_eq : (left (scan c)).file = c.file
  le_off : c.off ≤ (left (scan c)).off
  off_le : (left (scan c)).off ≤ c.limit
  limit_eq : (left (scan c)).limit = c.limit

/-- A scanner leaves the cursor in the statement. -/
theorem leadsTo_left (h : IsScanner scan) (c : Cursor) : c.LeadsTo (left (scan c)) := by
  have hstays := h.stays c
  cases hscan : scan c with
  | ok r => exact (hstays.of_eq_ok hscan).1
  | error s => exact (hstays.of_eq_error hscan).2

/-- A scanner that leaves the cursor in the statement comes to an end there. -/
theorem Once.of_leadsTo {β : Type} {reader : ArgReader β} {others : Nat}
    (hleft : c.LeadsTo (left (scan c)))
    (hvalue : (reader c).value.map (·.2) = (scan c).toOption.map (·.2))
    (herrors : (reader c).reports.countP (·.severity = .error)
      = if (reader c).value.isSome then 0 else 1)
    (hwarnings : (reader c).reports.countP (·.severity ≠ .error) ≤ others) :
    Once scan reader others c := by
  obtain ⟨hfile, hoff, hlimit⟩ := hleft.bounds
  refine ⟨hvalue, herrors, hwarnings, hfile, hoff, ?_, hlimit⟩
  rw [← hlimit]
  exact Nat.le_add_right _ _

/-- A scanner that stops makes one report, and it is an error. -/
theorem countP_reports (h : IsScanner scan) {s : Stop} (hs : scan c = .error s) :
    s.reports.countP (·.severity = .error) = 1 ∧ s.reports.countP (·.severity ≠ .error) = 0 := by
  obtain ⟨r, hreports, hr, -⟩ := ((h.stays c).of_eq_error hs).exists_report
  rw [hreports]
  exact ⟨by simp [hr], by simp [hr]⟩

/-- A reader that gives a value where its scanner does, with no report but warnings. -/
theorem Once.of_ok {β : Type} {reader : ArgReader β} {others : Nat} {v : α} {w : β}
    {warnings : List Diagnostic} (h : IsScanner scan) (hs : scan c = .ok (v, d))
    (hreader : reader c = ⟨warnings, some (w, d)⟩)
    (herrors : warnings.countP (·.severity = .error) = 0)
    (hwarnings : warnings.countP (·.severity ≠ .error) ≤ others) : Once scan reader others c := by
  refine .of_leadsTo (leadsTo_left h c) ?_ ?_ ?_
  · rw [hreader, hs]
    rfl
  · rw [hreader]
    exact herrors
  · rw [hreader]
    exact hwarnings

/-- A reader that reports what its scanner stopped with. -/
theorem Once.of_error {β : Type} {reader : ArgReader β} {others : Nat} {s : Stop}
    (h : IsScanner scan) (hs : scan c = .error s) (hreader : reader c = ⟨s.reports, none⟩) :
    Once scan reader others c := by
  obtain ⟨herrors, hothers⟩ := countP_reports h hs
  refine .of_leadsTo (leadsTo_left h c) ?_ ?_ ?_
  · rw [hreader, hs]
    rfl
  · rw [hreader]
    exact herrors
  · rw [hreader]
    exact hothers.le.trans (Nat.zero_le _)

/-- **A scanner is read once**: a value without a report, or one error. -/
theorem once_scan (h : IsScanner scan) (c : Cursor) : Once scan (.scan scan) 0 c := by
  cases hs : scan c with
  | ok r =>
    have hreader : ArgReader.scan scan c = ⟨[], some r⟩ := by
      rw [ArgReader.scan, hs]
      rfl
    exact .of_ok h hs hreader rfl (Nat.le_refl _)
  | error s =>
    have hreader : ArgReader.scan scan c = ⟨s.reports, none⟩ := by
      rw [ArgReader.scan, hs]
      rfl
    exact .of_error h hs hreader

/-- Cutting a number makes no error and one warning at most. -/
theorem countP_rangeWarnings (bits : Nat) (v : UInt64) (span : Span) :
    (rangeWarnings bits v span).countP (·.severity = .error) = 0 ∧
      (rangeWarnings bits v span).countP (·.severity ≠ .error) ≤ 1 := by
  unfold rangeWarnings
  split
  · exact ⟨rfl, Nat.le_refl _⟩
  · exact ⟨rfl, Nat.zero_le _⟩

/-- The warnings about a number go with its value. -/
theorem argReader_word_of_ok {v : UInt32} {warnings : List Diagnostic}
    (h : word symbols c = .ok ((v, warnings), d)) :
    ArgReader.word symbols c = ⟨warnings, some (v, d)⟩ := by
  show (Outcome.ofScanned (word symbols c)).andThen _ = _
  rw [h]
  simp [Outcome.ofScanned, Outcome.done, Outcome.andThen, ArgReader.report, bind, pure]

/-- Without a number the reports are those of the stop. -/
theorem argReader_word_of_error {s : Stop} (h : word symbols c = .error s) :
    ArgReader.word symbols c = ⟨s.reports, none⟩ := by
  show (Outcome.ofScanned (word symbols c)).andThen _ = _
  rw [h]
  rfl

/-- A number of 32 bits is read once, with a warning at most. -/
theorem once_word (symbols : Resolver) (c : Cursor) :
    Once (word symbols) (.word symbols) 1 c := by
  cases h : absolute symbols c with
  | ok r =>
    obtain ⟨⟨v, span⟩, d⟩ := r
    have hword : word symbols c = .ok ((v.toUInt32, rangeWarnings 32 v span), d) := by
      rw [word, h]
    obtain ⟨herrors, hwarnings⟩ := countP_rangeWarnings 32 v span
    exact .of_ok (.word symbols) hword (argReader_word_of_ok hword) herrors hwarnings
  | error s =>
    have hword : word symbols c = .error s := by rw [word, h]
    exact .of_error (.word symbols) hword (argReader_word_of_error hword)

/-- A scanner of values, read once: each value and each list of them takes as many bytes that are
not blank as there are values in it. -/
structure TakesOnce {β : Type} (scan : Cursor → Scanned α) (reader : ArgReader β) (others : Nat)
    (c : Cursor) : Prop extends Once scan reader others c where
  consumes {v : α} {d : Cursor} : scan c = .ok (v, d) → c.Consumes d
  items_le (shorter : ∀ {c d v}, scan c = .ok (v, d) → d.rest.length < c.rest.length)
    (open_ : Bool) : (items scan shorter open_ c).1.length ≤ nonBlanks c.rest

/-- A scanner of values that is read once takes a byte that is not blank for each value. -/
theorem Once.takes {β : Type} {reader : ArgReader β} {others : Nat}
    (h : Once scan reader others c) (hscan : Consuming scan) : TakesOnce scan reader others c :=
  { h with
    consumes := fun hv => (hscan hv).2
    items_le := fun shorter open_ => length_items_le hscan shorter open_ c }

/-- **Readers of arguments fail once and make progress.** From every place of every statement, each
of them ends with a value and no error or with one error and no value, and no warning but one about
a number that is cut to 32 bits. The cursor is left in the statement and not before the place. A
value has a byte in it that is not blank, so that no list of values goes on for ever. -/
theorem readers_end_once (symbols : Resolver) (what : Bytes) (c : Cursor) :
    TakesOnce (expression symbols) (.scan (expression symbols)) 0 c ∧
      TakesOnce (absolute symbols) (.absolute symbols) 0 c ∧
      TakesOnce (word symbols) (.word symbols) 1 c ∧
      TakesOnce quotedString .string 0 c ∧
      TakesOnce (expectName what) (.scan (expectName what)) 0 c ∧
      Once comma .comma 0 c ∧
      Once (requiredComma what) (.scan (requiredComma what)) 0 c ∧
      Once noGarbage .finish 0 c :=
  ⟨(once_scan (.expression symbols) c).takes (consuming_expression symbols),
    (once_scan (.absolute symbols) c).takes (consuming_absolute symbols),
    (once_word symbols c).takes (consuming_word symbols),
    (once_scan .quotedString c).takes consuming_quotedString,
    (once_scan (.expectName what) c).takes (consuming_expectName what),
    once_scan .comma c, once_scan (.requiredComma what) c, once_scan .noGarbage c⟩

end Statement

end CatalystAsm
