import CatalystAsm.Assembly.Run
import CatalystAsm.Proofs.Statement.Arithmetic
import CatalystAsm.Proofs.Statement.Reading
import Mathlib.Logic.Relation

/-!
# The places that reading comes to

Whatever is read, reading goes on in the same statement (`Cursor.LeadsTo`): forward, and not past
its end. A scanner that stops is about a span of the statement (`Cursor.Spans`). Both are shown of
every scanner in one statement, about what it gives and about how it stops.
-/

namespace CatalystAsm

/-- The span of a diagnostic and those of its notes all satisfy `P`. -/
def Diagnostic.PointsTo (P : Span → Prop) (d : Diagnostic) : Prop :=
  P d.span ∧ ∀ n ∈ d.notes, P n.span

theorem Diagnostic.PointsTo.mono {P Q : Span → Prop} {d : Diagnostic} (h : d.PointsTo P)
    (hPQ : ∀ t, P t → Q t) : d.PointsTo Q :=
  ⟨hPQ _ h.1, fun n hn => hPQ _ (h.2 n hn)⟩

/-- A diagnostic without notes. -/
theorem Diagnostic.pointsTo_of_notes_eq_nil {P : Span → Prop} {d : Diagnostic} (h : P d.span)
    (hnotes : d.notes = []) : d.PointsTo P := by
  refine ⟨h, fun n hn => ?_⟩
  rw [hnotes] at hn
  cases hn

namespace Cursor

variable {b c d e : Cursor} {s : Span}

/-! ## Moving on -/

/-- Some bytes further on in the same statement. -/
def LeadsTo (c d : Cursor) : Prop := ∃ n ≤ c.rest.length, d = c.advance n

/-- The span between two places of the statement, the second of which is not before the first. -/
def Spans (c : Cursor) (s : Span) : Prop := ∃ d e, c.LeadsTo d ∧ d.LeadsTo e ∧ s = d.spanTo e

/-- The stop reports one fault, about a span of the statement, and leaves the cursor in it. -/
structure Allows (c : Cursor) (s : Stop) : Prop where
  single : ∃ f, s.findings = [f] ∧ c.Spans f.span
  leadsTo : c.LeadsTo s.cursor

theorem leadsTo_advance {n : Nat} (h : n ≤ c.rest.length) : c.LeadsTo (c.advance n) := ⟨n, h, rfl⟩

theorem LeadsTo.refl (c : Cursor) : c.LeadsTo c := ⟨0, Nat.zero_le _, rfl⟩

/-- Moving on twice is moving on. -/
theorem LeadsTo.trans (hcd : c.LeadsTo d) (hde : d.LeadsTo e) : c.LeadsTo e := by
  obtain ⟨m, hm, rfl⟩ := hcd
  obtain ⟨n, hn, rfl⟩ := hde
  rw [length_rest_advance] at hn
  rw [advance_advance]
  exact leadsTo_advance (by omega)

/-- The file and the end of the statement stay, and the offset does not go back. -/
theorem LeadsTo.bounds (h : c.LeadsTo d) : d.file = c.file ∧ c.off ≤ d.off ∧ d.limit = c.limit := by
  obtain ⟨n, hn, rfl⟩ := h
  exact ⟨rfl, Nat.le_add_right _ _, limit_advance hn⟩

theorem leadsTo_skipWhile (c : Cursor) (p : UInt8 → Bool) : c.LeadsTo (c.skipWhile p) :=
  leadsTo_advance (List.takeWhile_sublist p).length_le

theorem leadsTo_skipBlanks (c : Cursor) : c.LeadsTo c.skipBlanks := c.leadsTo_skipWhile isBlank

/-- The end of the statement is in it. -/
theorem leadsTo_toLimit (c : Cursor) : c.LeadsTo c.toLimit := by
  refine ⟨c.rest.length, Nat.le_refl _, ?_⟩
  rw [advance, List.drop_length]
  rfl

/-- The place behind a byte that is there is in the statement. -/
theorem leadsTo_eat? {x : UInt8} (h : c.eat? x = some d) : c.LeadsTo d := by
  have hshorter := length_rest_eat? h
  unfold eat? at h
  split at h
  · cases h
    exact leadsTo_advance (by omega)
  · cases h

/-- The place behind a word that is there is in the statement. -/
theorem leadsTo_eatWord? {word : Bytes} (h : c.eatWord? word = some d) : c.LeadsTo d := by
  unfold eatWord? at h
  split at h
  · rename_i hword
    cases h
    exact leadsTo_advance (List.isPrefixOf_iff_prefix.mp hword).length_le
  · cases h

/-- A span further on is a span from here. -/
theorem Spans.mono (hbc : b.LeadsTo c) (h : c.Spans s) : b.Spans s := by
  obtain ⟨d, e, hd, he, rfl⟩ := h
  exact ⟨d, e, hbc.trans hd, he, rfl⟩

/-- A stop that is allowed further on is allowed from here. -/
theorem Allows.mono {s : Stop} (hbc : b.LeadsTo c) (h : c.Allows s) : b.Allows s := by
  obtain ⟨f, hf, hspan⟩ := h.single
  exact ⟨⟨f, hf, hspan.mono hbc⟩, hbc.trans h.leadsTo⟩

/-- Two places of the statement have a span of it between them. -/
theorem spans_spanTo (hcd : c.LeadsTo d) (hde : d.LeadsTo e) : c.Spans (d.spanTo e) :=
  ⟨d, e, hcd, hde, rfl⟩

/-- A stop about the text up to where the cursor is left. -/
theorem allows_spanTo (hcd : c.LeadsTo d) (hde : d.LeadsTo e) (fault : Fault) :
    c.Allows (.about [fault] (d.spanTo e) e) :=
  ⟨⟨_, rfl, spans_spanTo hcd hde⟩, hcd.trans hde⟩

/-- A stop where the cursor stands. -/
theorem allows_here (hcd : c.LeadsTo d) (fault : Fault) : c.Allows (.about [fault] d.here d) :=
  ⟨⟨_, rfl, spans_spanTo hcd (.refl d)⟩, hcd⟩

/-- The reports of a stop are one error, about a span of the statement. -/
theorem Allows.exists_report {s : Stop} (h : c.Allows s) :
    ∃ r, s.reports = [r] ∧ r.severity = .error ∧ r.PointsTo c.Spans := by
  obtain ⟨f, hf, hspan⟩ := h.single
  refine ⟨f.diagnostic, ?_, rfl, Diagnostic.pointsTo_of_notes_eq_nil hspan rfl⟩
  rw [Stop.reports, hf]
  rfl

end Cursor

namespace Statement

open Cursor

variable {c d : Cursor} {symbols : Resolver}

/-- The place behind a name is in the statement. -/
theorem leadsTo_name? {n : Bytes} (h : name? c = some (n, d)) : c.LeadsTo d := by
  unfold name? at h
  split at h
  · cases h
  · split at h
    · cases h
      exact c.leadsTo_skipWhile isNameByte
    · cases h

/-- A scanner moves on and gives what satisfies `P`, or makes a stop that is allowed. -/
def Stays {α : Type} (c : Cursor) (P : α → Prop) : Scanned α → Prop :=
  Ends c.Allows fun r => c.LeadsTo r.2 ∧ P r.1

/-- A scanner that stays in the statement further on stays in it from here. -/
theorem Stays.mono {α : Type} {P : α → Prop} {x : Scanned α} (hcd : c.LeadsTo d)
    (h : Stays d P x) : Stays c P x :=
  Ends.mono h (fun _ => Allows.mono hcd) fun _ hr => ⟨hcd.trans hr.1, hr.2⟩

theorem Stays.imp {α : Type} {P Q : α → Prop} {x : Scanned α} (h : Stays c P x)
    (hPQ : ∀ v, P v → Q v) : Stays c Q x :=
  Ends.mono h (fun _ hs => hs) fun _ hr => ⟨hr.1, hPQ _ hr.2⟩

/-! ## Literals -/

/-- An escape is read in the statement, or one fault in it is reported. -/
theorem stays_escape (c : Cursor) : Stays c (fun _ => True) (escape c) := by
  unfold escape
  split
  · rename_i b rest hrest
    have hlength : c.rest.length = rest.length + 2 := by
      rw [hrest]
      rfl
    have htwo : c.LeadsTo (c.advance 2) := leadsTo_advance (by omega)
    split
    · exact ⟨htwo, trivial⟩
    · split
      · -- the hexadecimal digits are among the next two bytes
        have hdigits := (List.takeWhile_sublist isHexDigit (l := rest.take 2)).length_le
        rw [List.length_take] at hdigits
        have hend : c.LeadsTo (c.advance (2 + ((rest.take 2).takeWhile isHexDigit).length)) :=
          leadsTo_advance (by omega)
        dsimp only
        split
        · exact allows_spanTo (.refl c) hend _
        · exact ⟨hend, trivial⟩
      · split
        · have hdigits := (List.takeWhile_sublist isOctalDigit (l := rest.take 2)).length_le
          rw [List.length_take] at hdigits
          have hend : c.LeadsTo
              (c.advance (1 + (b :: (rest.take 2).takeWhile isOctalDigit).length)) := by
            refine leadsTo_advance ?_
            rw [List.length_cons]
            omega
          dsimp only
          split
          · exact allows_spanTo (.refl c) hend _
          · exact ⟨hend, trivial⟩
        · exact allows_spanTo (.refl c) htwo _
  · exact allows_spanTo (.refl c) c.leadsTo_toLimit _

/-- A character is read in the statement, or one fault in it is reported. -/
theorem stays_character (hc : c.rest ≠ []) : Stays c (fun _ => True) (character c) := by
  have hpos : 0 < c.rest.length := List.length_pos_iff.mpr hc
  have hd : c.LeadsTo (c.advance 1) := leadsTo_advance hpos
  unfold character
  dsimp only
  split
  · exact allows_spanTo (.refl c) hd _
  · rename_i b rest hrest
    split
    · exact allows_spanTo (.refl c) hd _
    · split
      · -- an escape between the quotes
        split
        · rename_i s hescape
          exact ((stays_escape (c.advance 1)).of_eq_error hescape).mono hd
        · rename_i v e hescape
          have he : c.LeadsTo e := hd.trans ((stays_escape (c.advance 1)).of_eq_ok hescape).1
          split
          · rename_i f hclose
            exact ⟨he.trans (leadsTo_eat? hclose), trivial⟩
          · exact allows_spanTo (.refl c) he _
      · -- a single byte between the quotes
        have he : c.LeadsTo ((c.advance 1).advance 1) := by
          refine hd.trans (leadsTo_advance ?_)
          rw [hrest]
          exact Nat.succ_pos _
        split
        · rename_i f hclose
          exact ⟨he.trans (leadsTo_eat? hclose), trivial⟩
        · exact allows_spanTo (.refl c) he _

/-- The rest of a string is read in the statement. A fault may lie anywhere since its start. -/
theorem stays_stringBody {b start chunk : Cursor} {out : Bytes} (hstart : b.LeadsTo start)
    (hc : start.LeadsTo c) : Stays b (fun _ => True) (stringBody start out chunk c) := by
  fun_induction stringBody start out chunk c with
  | case1 out chunk c hrest => exact allows_spanTo hstart hc _
  | case2 out chunk c x rest hrest =>
    refine ⟨(hstart.trans hc).trans (leadsTo_advance ?_), trivial⟩
    rw [hrest]
    exact Nat.succ_pos _
  | case3 out chunk c x rest hrest _ _ s hescape =>
    exact ((stays_escape c).of_eq_error hescape).mono (hstart.trans hc)
  | case4 out chunk c x rest hrest _ _ v d hescape ih =>
    exact ih (hc.trans ((stays_escape c).of_eq_ok hescape).1)
  | case5 out chunk c x rest hrest _ _ ih =>
    refine ih (hc.trans (leadsTo_advance ?_))
    rw [hrest]
    exact Nat.succ_pos _

/-- A string is read in the statement, or one fault in it is reported. -/
theorem stays_quotedString (c : Cursor) : Stays c (fun _ => True) (quotedString c) := by
  unfold quotedString
  dsimp only
  split
  · exact allows_here c.leadsTo_skipBlanks _
  · rename_i d hopen
    exact stays_stringBody c.leadsTo_skipBlanks (leadsTo_eat? hopen)

/-- The base of a number stands in the statement. -/
theorem leadsTo_literalBase (c : Cursor) : c.LeadsTo (literalBase c).2 := by
  unfold literalBase
  split
  · rename_i b rest hrest
    have hlength : c.rest.length = rest.length + 2 := by
      rw [hrest]
      rfl
    split
    · exact leadsTo_advance (by omega)
    · split
      · exact leadsTo_advance (by omega)
      · exact leadsTo_advance (by omega)
  · rename_i rest _ hrest
    refine leadsTo_advance ?_
    rw [hrest]
    exact Nat.succ_pos _
  · exact .refl c

/-- A number is read in the statement, or one fault in it is reported. -/
theorem stays_integer (c : Cursor) : Stays c (fun _ => True) (integer c) := by
  have hd := leadsTo_literalBase c
  unfold integer
  generalize literalBase c = r at hd ⊢
  obtain ⟨base, d⟩ := r
  dsimp only at hd ⊢
  have hdigits := (List.takeWhile_sublist (isLiteralDigit base) (l := d.rest)).length_le
  have he : c.LeadsTo (d.advance (d.rest.takeWhile (isLiteralDigit base)).length) :=
    hd.trans (leadsTo_advance hdigits)
  split
  · rename_i i hi
    -- the first digit that is out of range is one of the digits
    have hlt := (List.findIdx?_eq_some_iff_findIdx_eq.mp hi).1
    exact allows_spanTo (.refl c) (hd.trans (leadsTo_advance (by omega))) _
  · split
    · exact allows_spanTo (.refl c) he _
    · split
      · split
        · exact allows_spanTo (.refl c) (he.trans (leadsTo_skipWhile _ _)) _
        · split
          · exact allows_spanTo (.refl c) he _
          · exact ⟨he, trivial⟩
      · split
        · exact allows_spanTo (.refl c) he _
        · exact ⟨he, trivial⟩

/-! ## Expressions -/

/-- What the parser of expressions does: as a scanner, with the cursor after the value in a
subtype. -/
def Parses {p : Cursor → Prop} (c : Cursor) :
    Except Stop (Value × { d : Cursor // p d }) → Prop :=
  Ends c.Allows fun r => c.LeadsTo r.2.1

/-- An atom is read in the statement, or one fault in it is reported. -/
theorem parses_atom (symbols : Resolver) (c : Cursor) : Parses c (atom symbols c) := by
  unfold atom
  split
  · exact allows_here (.refl c) _
  · rename_i b hpeek
    have hrest : c.rest ≠ [] := by
      intro hnil
      rw [peek?, hnil] at hpeek
      cases hpeek
    split
    · -- a character
      split
      · rename_i hcharacter
        exact (stays_character hrest).of_eq_error hcharacter
      · rename_i hcharacter
        exact ((stays_character hrest).of_eq_ok hcharacter).1
    · split
      · -- an integer
        split
        · rename_i hinteger
          exact (stays_integer c).of_eq_error hinteger
        · rename_i hinteger
          exact ((stays_integer c).of_eq_ok hinteger).1
      · -- a symbol
        split
        · exact allows_here (.refl c) _
        · rename_i n d hname
          split
          · exact leadsTo_name? hname
          · exact allows_spanTo (.refl c) (leadsTo_name? hname) _

mutual

/-- Operands with the operators between them are read in the statement. -/
theorem parses_binary (symbols : Resolver) (least : Nat) (c : Cursor) :
    Parses c (binary symbols least c) := by
  rw [binary]
  split
  · rename_i s hunary
    exact (parses_unary symbols c).of_eq_error hunary
  · rename_i v d hd hunary
    have hmove : c.LeadsTo d := (parses_unary symbols c).of_eq_ok hunary
    split
    · rename_i s hoperators
      exact (parses_operators symbols least v hmove).of_eq_error hoperators
    · rename_i w e he hoperators
      exact (parses_operators symbols least v hmove).of_eq_ok hoperators
termination_by 4 * c.rest.length + 3

/-- Further operators are read in the statement at `start`, or one fault in it is reported. -/
theorem parses_operators (symbols : Resolver) (least : Nat) {start : Cursor} (left : Value)
    {c : Cursor} (hc : start.LeadsTo c) : Parses start (operators symbols least start left c) := by
  have hblanks : start.LeadsTo c.skipBlanks := hc.trans c.leadsTo_skipBlanks
  rw [operators]
  dsimp only
  split
  · exact hblanks
  · rename_i op hop
    split
    · exact hblanks
    · have hshorter := c.length_rest_skipBlanks
      have hpos := op.spelling_length_pos
      have hadvance := c.skipBlanks.length_rest_advance op.spelling.length
      have hprefix := List.find?_some hop
      have hlen : op.spelling.length ≤ c.skipBlanks.rest.length :=
        (List.isPrefixOf_iff_prefix.1 hprefix).length_le
      have hoperator : start.LeadsTo (c.skipBlanks.advance op.spelling.length) :=
        hblanks.trans (leadsTo_advance hlen)
      split
      · rename_i s hright
        exact ((parses_binary symbols op.strength _).of_eq_error hright).mono hoperator
      · rename_i right e he hright
        have hoperand : start.LeadsTo e :=
          hoperator.trans ((parses_binary symbols op.strength _).of_eq_ok hright)
        split
        · rename_i faults happly
          obtain ⟨fault, rfl⟩ := Value.exists_fault_of_apply happly
          exact allows_spanTo (.refl start) hoperand fault
        · rename_i v happly
          split
          · rename_i s hrest
            exact (parses_operators symbols least v hoperand).of_eq_error hrest
          · rename_i w f hf hrest
            exact (parses_operators symbols least v hoperand).of_eq_ok hrest
termination_by 4 * c.rest.length

/-- A unary operator with its operand is read in the statement. -/
theorem parses_unary (symbols : Resolver) (c : Cursor) : Parses c (unary symbols c) := by
  have hblanks := c.leadsTo_skipBlanks
  rw [unary]
  dsimp only
  split
  · exact allows_here hblanks _
  · rename_i b rest hrest
    have hshorter := c.length_rest_skipBlanks
    have hadvance := c.skipBlanks.length_rest_advance 1
    have hpos : 0 < c.skipBlanks.rest.length := by
      rw [hrest]
      exact Nat.succ_pos _
    have hone : c.skipBlanks.LeadsTo (c.skipBlanks.advance 1) := leadsTo_advance hpos
    split
    · -- an operator before another operand
      split
      · rename_i s hoperand
        exact ((parses_unary symbols _).of_eq_error hoperand).mono (hblanks.trans hone)
      · rename_i v e he hoperand
        have hend : c.skipBlanks.LeadsTo e :=
          hone.trans ((parses_unary symbols _).of_eq_ok hoperand)
        split
        · rename_i faults happly
          obtain ⟨fault, rfl⟩ := Value.exists_fault_of_applyUnary happly
          exact allows_spanTo hblanks hend fault
        · exact hblanks.trans hend
    · split
      · -- an expression in parentheses
        split
        · rename_i s hinner
          exact ((parses_binary symbols 0 _).of_eq_error hinner).mono (hblanks.trans hone)
        · rename_i v e he hinner
          have hend : c.skipBlanks.LeadsTo e.skipBlanks :=
            (hone.trans ((parses_binary symbols 0 _).of_eq_ok hinner)).trans e.leadsTo_skipBlanks
          split
          · exact allows_spanTo hblanks hend _
          · rename_i f hclose
            exact (hblanks.trans hend).trans (leadsTo_eat? hclose)
      · -- an atom
        split
        · rename_i s hatom
          exact ((parses_atom symbols _).of_eq_error hatom).mono hblanks
        · rename_i v e he hatom
          exact hblanks.trans ((parses_atom symbols _).of_eq_ok hatom)
termination_by 4 * c.rest.length + 1

end

/-- The span of an expression is one of the statement. -/
theorem stays_expression (symbols : Resolver) (c : Cursor) :
    Stays c (fun v => c.Spans v.2) (expression symbols c) := by
  have hblanks := c.leadsTo_skipBlanks
  unfold expression
  dsimp only
  split
  · rename_i s hbinary
    exact ((parses_binary symbols 0 _).of_eq_error hbinary).mono hblanks
  · rename_i v d hd hbinary
    have hmove : c.skipBlanks.LeadsTo d := (parses_binary symbols 0 _).of_eq_ok hbinary
    exact ⟨hblanks.trans hmove, spans_spanTo hblanks hmove⟩

/-- The span of an absolute expression is one of the statement. -/
theorem stays_absolute (symbols : Resolver) (c : Cursor) :
    Stays c (fun v => c.Spans v.2) (absolute symbols c) := by
  unfold absolute
  split
  · rename_i s hexpression
    exact (stays_expression symbols c).of_eq_error hexpression
  · rename_i v span d hexpression
    obtain ⟨hmove, hspan⟩ := (stays_expression symbols c).of_eq_ok hexpression
    split
    · exact ⟨⟨_, rfl, hspan⟩, hmove⟩
    · exact ⟨hmove, hspan⟩

/-! ## Arguments -/

/-- The span of a name is one of the statement. -/
theorem stays_expectName (what : Bytes) (c : Cursor) :
    Stays c (fun v => c.Spans v.2) (expectName what c) := by
  have hblanks := c.leadsTo_skipBlanks
  unfold expectName
  dsimp only
  split
  · exact allows_here hblanks _
  · rename_i n d hname
    have hmove := leadsTo_name? hname
    exact ⟨hblanks.trans hmove, spans_spanTo hblanks hmove⟩

/-- A comma or the end is read in the statement, or one fault in it is reported. -/
theorem stays_comma (c : Cursor) : Stays c (fun _ => True) (comma c) := by
  have hblanks := c.leadsTo_skipBlanks
  unfold comma
  dsimp only
  split
  · exact ⟨hblanks, trivial⟩
  · split
    · rename_i e hcomma
      exact ⟨hblanks.trans (leadsTo_eat? hcomma), trivial⟩
    · exact allows_here hblanks _

/-- The comma is read in the statement, or reported as missing there. -/
theorem stays_requiredComma (what : Bytes) (c : Cursor) :
    Stays c (fun _ => True) (requiredComma what c) := by
  have hblanks := c.leadsTo_skipBlanks
  unfold requiredComma
  dsimp only
  split
  · rename_i e hcomma
    exact ⟨hblanks.trans (leadsTo_eat? hcomma), trivial⟩
  · exact allows_here hblanks _

/-- What is left over is reported where it stands in the statement. -/
theorem stays_noGarbage (c : Cursor) : Stays c (fun _ => True) (noGarbage c) := by
  have hblanks := c.leadsTo_skipBlanks
  unfold noGarbage
  dsimp only
  split
  · exact ⟨hblanks, trivial⟩
  · exact allows_spanTo hblanks (leadsTo_toLimit _) _

/-- A character or an integer is read in the statement, or one fault in it is reported. -/
theorem stays_numeric (c : Cursor) : Stays c (fun _ => True) (numeric c) := by
  unfold numeric
  split
  · rename_i hpeek
    refine stays_character ?_
    intro hnil
    rw [peek?, hnil] at hpeek
    cases hpeek
  · exact stays_integer c

/-- The warning that a number is too large points to the number. -/
theorem pointsTo_rangeWarnings {P : Span → Prop} {span : Span} (h : P span) (bits : Nat)
    (v : UInt64) : ∀ w ∈ rangeWarnings bits v span, w.PointsTo P := by
  intro w hw
  unfold rangeWarnings at hw
  split at hw
  · rw [List.mem_singleton.mp hw]
    exact Diagnostic.pointsTo_of_notes_eq_nil h rfl
  · cases hw

/-- The warnings that come with a number of 32 bits point into the statement. -/
theorem stays_word (symbols : Resolver) (c : Cursor) :
    Stays c (fun v => ∀ w ∈ v.2, w.PointsTo c.Spans) (word symbols c) := by
  unfold word
  split
  · rename_i s habsolute
    exact (stays_absolute symbols c).of_eq_error habsolute
  · rename_i v span d habsolute
    obtain ⟨hmove, hspan⟩ := (stays_absolute symbols c).of_eq_ok habsolute
    exact ⟨hmove, pointsTo_rangeWarnings hspan 32 v⟩

/-- The scanners that statements are read with. -/
inductive IsScanner : {α : Type} → (Cursor → Scanned α) → Prop
  | expression (symbols : Resolver) : IsScanner (expression symbols)
  | absolute (symbols : Resolver) : IsScanner (absolute symbols)
  | word (symbols : Resolver) : IsScanner (word symbols)
  | quotedString : IsScanner quotedString
  | numeric : IsScanner numeric
  | expectName (what : Bytes) : IsScanner (expectName what)
  | comma : IsScanner comma
  | requiredComma (what : Bytes) : IsScanner (requiredComma what)
  | noGarbage : IsScanner noGarbage

/-- **Every scanner stays in the statement**, and stops with one fault in it. -/
theorem IsScanner.stays {α : Type} {scan : Cursor → Scanned α} (h : IsScanner scan) (c : Cursor) :
    Stays c (fun _ => True) (scan c) := by
  cases h with
  | expression symbols => exact (stays_expression symbols c).imp fun _ _ => trivial
  | absolute symbols => exact (stays_absolute symbols c).imp fun _ _ => trivial
  | word symbols => exact (stays_word symbols c).imp fun _ _ => trivial
  | quotedString => exact stays_quotedString c
  | numeric => exact stays_numeric c
  | expectName what => exact (stays_expectName what c).imp fun _ _ => trivial
  | comma => exact stays_comma c
  | requiredComma what => exact stays_requiredComma what c
  | noGarbage => exact stays_noGarbage c

end Statement

/-- One thing is read, or a scanner stops. -/
inductive Cursor.Reads : Cursor → Cursor → Prop
  | blanks (c : Cursor) : Reads c c.skipBlanks
  | toLimit (c : Cursor) : Reads c c.toLimit
  | byte {c d : Cursor} {x : UInt8} : c.eat? x = some d → Reads c d
  | bytes {c d : Cursor} {word : Bytes} : c.eatWord? word = some d → Reads c d
  | name {c d : Cursor} {n : Bytes} : Statement.name? c = some (n, d) → Reads c d
  | equals {c d : Cursor} : Assembler.afterAssignment? c = some d → Reads c d
  | scanned {α : Type} {scan : Cursor → Scanned α} {c d : Cursor} {v : α} :
    Statement.IsScanner scan → scan c = .ok (v, d) → Reads c d
  | stopped {α : Type} {scan : Cursor → Scanned α} {c : Cursor} {s : Stop} :
    Statement.IsScanner scan → scan c = .error s → Reads c s.cursor

/-- The place behind the sign of an assignment is in the statement. -/
theorem Assembler.leadsTo_afterAssignment? {c d : Cursor} (h : afterAssignment? c = some d) :
    c.LeadsTo d := by
  unfold afterAssignment? at h
  split at h
  · cases h
  · rename_i rest _ hrest
    cases h
    refine Cursor.leadsTo_advance ?_
    rw [hrest]
    exact Nat.succ_pos _
  · cases h

/-- **Whatever is read**, the cursor stays in the statement. -/
theorem Cursor.Reads.leadsTo {c d : Cursor} (h : c.Reads d) : c.LeadsTo d := by
  cases h with
  | blanks => exact c.leadsTo_skipBlanks
  | toLimit => exact c.leadsTo_toLimit
  | byte h => exact leadsTo_eat? h
  | bytes h => exact leadsTo_eatWord? h
  | name h => exact Statement.leadsTo_name? h
  | equals h => exact Assembler.leadsTo_afterAssignment? h
  | scanned hscan h => exact ((hscan.stays c).of_eq_ok h).1
  | stopped hscan h => exact ((hscan.stays c).of_eq_error h).2

end CatalystAsm
