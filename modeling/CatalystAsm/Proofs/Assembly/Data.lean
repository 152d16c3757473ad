import CatalystAsm.Proofs.Assembly.Clause
import CatalystAsm.Proofs.Statement.NumberList

/-!
# Numbers as data

A data directive puts numbers of one size behind the bytes of the current section, lowest byte
first. Numbers that fit the size neither unsigned nor as negative numbers are cut, each with a
warning of its own; nothing else changes (`number_directives_encode`).
-/

namespace CatalystAsm

/-- The low bytes of a number are those of its remainder. -/
theorem Bytes.littleEndian_mod (n v : Nat) :
    littleEndian n (v % 2 ^ (8 * n)) = littleEndian n v := by
  induction n generalizing v with
  | zero => rfl
  | succ n ih =>
    have hpow : 2 ^ (8 * (n + 1)) = 256 * 2 ^ (8 * n) := by ring
    have hlow : UInt8.ofNat (v % 2 ^ (8 * (n + 1))) = UInt8.ofNat v := by
      rw [← UInt8.toNat_inj, UInt8.toNat_ofNat', UInt8.toNat_ofNat', hpow]
      exact Nat.mod_mod_of_dvd v (Nat.dvd_mul_right 256 _)
    have hhigh : v % 2 ^ (8 * (n + 1)) / 256 = v / 256 % 2 ^ (8 * n) := by
      rw [hpow, Nat.mod_mul_right_div_self]
    rw [littleEndian, littleEndian, hlow, hhigh, ih]

/-! ## The statement of a directive -/

section Directive

open Statement

variable {c : Cursor} {indent name gap rest : Bytes} {b : UInt8}

/-- A byte that is another one is not eaten. -/
theorem Cursor.eat?_eq_none {x : UInt8} (hc : c.rest = b :: rest) (hne : b ≠ x) :
    c.eat? x = none := by
  refine if_neg fun hpeek => hne ?_
  rw [Cursor.peek?, hc] at hpeek
  exact Option.some.inj hpeek

/-- Without the sign there is no assignment. -/
theorem Assembler.afterAssignment?_eq_none (hc : c.rest = b :: rest) (hne : b ≠ 0x3d) :
    afterAssignment? c = none := by
  unfold afterAssignment?
  rw [hc]
  split
  · rfl
  · rename_i heq
    exact absurd (List.cons.inj heq).1 hne
  · rfl

/-- A name with a dot before it and arguments behind it is a directive, unless what follows it is a
colon or an equals sign. -/
theorem Clause.ofStatement_directive (hindent : IsGap indent) (hne : name ≠ [])
    (hname : ∀ b ∈ name, isNameByte b = true) (hgap : IsGap gap) (hsome : gap ≠ [])
    (hblank : Cursor.isBlank b = false) (hcolon : b ≠ 0x3a) (hequals : b ≠ 0x3d)
    (hc : c.rest = indent ++ (0x2e :: name ++ (gap ++ b :: rest))) :
    ∃ place d, ofStatement c = [ofDirective name place d] ∧ d.rest = b :: rest := by
  have hstart : c.skipBlanks = c.advance indent.length := by
    refine Cursor.skipBlanks_eq hc hindent fun x hx => ?_
    obtain rfl := Option.some.inj hx
    rfl
  have hrest : c.skipBlanks.rest = 0x2e :: name ++ (gap ++ b :: rest) := by
    rw [hstart]
    exact Cursor.rest_advance hc
  have hend : EndsName (gap ++ b :: rest) := by
    obtain ⟨x, gap, rfl⟩ := List.exists_cons_of_ne_nil hsome
    intro y hy
    obtain rfl : x = y := Option.some.inj hy
    exact isNameByte_of_isBlank (hgap x List.mem_cons_self)
  have hread := name?_eq hrest rfl hname hend
  have hafter := Cursor.rest_advance hrest
  generalize c.skipBlanks.advance (0x2e :: name).length = d at hread hafter
  have hskip : d.skipBlanks = d.advance gap.length := by
    refine Cursor.skipBlanks_eq hafter hgap fun x hx => ?_
    obtain rfl : b = x := Option.some.inj hx
    exact hblank
  have hnext : d.skipBlanks.rest = b :: rest := by
    rw [hskip]
    exact Cursor.rest_advance hafter
  have hlimit : ¬c.skipBlanks.atLimit = true := by simp [Cursor.atLimit, hrest]
  have hdot : Assembler.directiveName? (0x2e :: name) = some name := by
    obtain ⟨x, name, rfl⟩ := List.exists_cons_of_ne_nil hne
    rfl
  rw [ofStatement_of_name? hlimit hread, Cursor.eat?_eq_none hnext hcolon,
    Assembler.afterAssignment?_eq_none hnext hequals, hdot]
  exact ⟨_, _, rfl, hnext⟩

end Directive

/-! ## Numbers -/

/-- The directives for numbers, each with the size of one number. -/
def numberDirectives : List (String × Nat) := [
  ("byte", 1), ("hword", 2), ("short", 2), ("int", 4), ("long", 4), ("word", 4), ("quad", 8)]

/-- The statements of a directive for numbers. -/
inductive DataStatement (size : Nat) (values : List UInt64) : Bytes → Prop
  | mk {indent gap list : Bytes} {name : String} (hindent : Statement.IsGap indent)
    (hname : (name, size) ∈ numberDirectives) (hgap : Statement.IsGap gap) (hsome : gap ≠ [])
    (hlist : Statement.DecimalList values list) :
    DataStatement size values (indent ++ .ofString "." ++ .ofString name ++ gap ++ list)

/-- A directive for numbers is known under its name, which a statement can begin with. -/
theorem of_mem_numberDirectives {name : String} {size : Nat}
    (h : (name, size) ∈ numberDirectives) :
    Directive.ofName? (.ofString name) = some (.numbers size) ∧ 0 < size ∧
      Bytes.ofString name ≠ [] ∧ (Bytes.ofString name).all Statement.isNameByte = true := by
  have hall : ∀ e ∈ numberDirectives,
      Directive.ofName? (.ofString e.1) = some (.numbers e.2) ∧ 0 < e.2 ∧
        Bytes.ofString e.1 ≠ [] ∧ (Bytes.ofString e.1).all Statement.isNameByte = true := by
    decide +kernel
  exact hall _ h

variable {size : Nat} {values : List UInt64} {text : Bytes} {c : Cursor}

theorem DataStatement.size_pos (h : DataStatement size values text) : 0 < size := by
  obtain ⟨-, hname, -, -, -⟩ := h
  exact (of_mem_numberDirectives hname).2.1

/-- The statement is one clause, with the list left to be read. -/
theorem DataStatement.exists_clause (h : DataStatement size values text) (hc : c.rest = text) :
    ∃ place d, Clause.ofStatement c = [.directive (.numbers size) place d] ∧
      Statement.DecimalList values d.rest := by
  obtain @⟨indent, gap, list, name, hindent, hname, hgap, hsome, hlist⟩ := h
  obtain ⟨hdirective, -, hne, hbytes⟩ := of_mem_numberDirectives hname
  obtain ⟨b, tail, rfl, hb⟩ := hlist.exists_head
  have hc : c.rest = indent ++ (0x2e :: Bytes.ofString name ++ (gap ++ b :: tail)) := by
    rw [hc]
    simp only [List.append_assoc]
    rfl
  have hfirst (x : UInt8) (hx : Statement.beginsNumber x = false) : b ≠ x :=
    beq_eq_false_iff_ne.mp (beq_eq_false_of_class hb hx)
  obtain ⟨place, d, hclauses, hd⟩ := Clause.ofStatement_directive hindent hne
    (List.all_eq_true.mp hbytes) hgap hsome (Statement.isBlank_of_beginsNumber hb)
    (hfirst 0x3a (by decide)) (hfirst 0x3d (by decide)) hc
  refine ⟨place, d, ?_, hd ▸ hlist⟩
  rw [hclauses, Clause.ofDirective, hdirective]

namespace Assembler

variable {a : Assembler}

/-- A list of numbers is put behind the bytes of a section that takes data. -/
theorem putNumbers_eq {s : TableSection} (hs : a.sections[a.current]? = some s)
    (hkind : s.kind.isWriteable = true) (hsize : 0 < size)
    (h : Statement.DecimalList values c.rest) (stmt : Span) :
    ∃ spans, spans.length = values.length ∧ a.putNumbers size stmt c
      = ⟨(values.zip spans).flatMap fun e => Statement.rangeWarnings (size * 8) e.1 e.2,
        some { a with
          contents := appendTo a.contents a.current
            (values.flatMap fun v => Bytes.littleEndian size v.toNat)
          hasContent := true }⟩ := by
  obtain ⟨spans, hlength, hitems⟩ :=
    Statement.items_decimalList h (List.forall_mem_nil _) rfl a.lookup true
  refine ⟨spans, hlength, ?_⟩
  have hvalues : (values.zip spans).map Prod.fst = values :=
    List.map_fst_zip (Nat.le_of_eq hlength.symm)
  have hdata : ((values.zip spans).flatMap fun e => Bytes.littleEndian size e.1.toNat)
      = values.flatMap fun v => Bytes.littleEndian size v.toNat := by
    conv_rhs => rw [← hvalues, List.flatMap_map]
  have hsome : (values.flatMap fun v => Bytes.littleEndian size v.toNat).isEmpty = false := by
    obtain ⟨n, rfl⟩ := Nat.exists_eq_succ_of_ne_zero (Nat.ne_of_gt hsize)
    obtain ⟨v, values, rfl⟩ := List.exists_cons_of_ne_nil h.ne_nil
    rfl
  unfold putNumbers listReports
  dsimp only
  rw [hitems]
  dsimp only
  rw [hdata, hsome, putData_of_writeable hs hkind]
  show (⟨(values.zip spans).flatMap _ ++ [] ++ [], some _⟩ : Outcome Assembler) = _
  rw [List.append_nil, List.append_nil]

/-- **One warning for each number that does not fit**, in their order. -/
theorem forall₂_rangeWarnings {bits : Nat} (hbits : 0 < bits) {spans : List Span}
    (h : spans.length = values.length) :
    List.Forall₂ (fun v d => ∃ span, d = Statement.rangeWarning bits v span)
      (values.filter fun v => ¬Statement.Fits bits v)
      ((values.zip spans).flatMap fun e => Statement.rangeWarnings bits e.1 e.2) := by
  induction values generalizing spans with
  | nil => exact .nil
  | cons v values ih =>
    obtain ⟨span, spans, rfl⟩ := List.exists_cons_of_length_eq_add_one h
    have hmore := ih (Nat.succ.inj h)
    rw [List.zip_cons_cons, List.flatMap_cons, Statement.rangeWarnings]
    by_cases hfits : Statement.Fits bits v
    · have hin : ¬Statement.outOfRange bits v = true := fun hout =>
        (Statement.outOfRange_iff hbits).mp hout hfits
      rw [if_neg hin, List.filter_cons_of_neg (by simpa using hfits)]
      exact hmore
    · rw [if_pos ((Statement.outOfRange_iff hbits).mpr hfits),
        List.filter_cons_of_pos (by simpa using hfits)]
      exact .cons ⟨span, rfl⟩ hmore

/-- **Data directives encode their numbers.** Where the current section takes data, the statement
puts the numbers, cut to the size of the directive, behind its bytes and changes nothing else; it
makes no error, and one warning for each number that does not fit. -/
theorem number_directives_encode {s : TableSection} (hs : a.sections[a.current]? = some s)
    (hkind : s.kind.isWriteable = true) (h : DataStatement size values text) (hc : c.rest = text) :
    let b := (a.statement c).1
    let reports := (a.statement c).2.filterMap Event.report?
    b.content a.current = a.content a.current
        ++ (values.flatMap fun v => Bytes.littleEndian size (v.toNat % 2 ^ (8 * size))) ∧
    (∀ id, id ≠ a.current → b.content id = a.content id) ∧
    b = { a with contents := b.contents, hasContent := true } ∧
    NoError reports ∧
    List.Forall₂ (fun v d => ∃ span, d = Statement.rangeWarning (8 * size) v span)
      (values.filter fun v => ¬Statement.Fits (8 * size) v) reports := by
  intro b reports
  obtain ⟨place, d, hclauses, hlist⟩ := h.exists_clause hc
  obtain ⟨spans, hlength, hput⟩ := putNumbers_eq hs hkind h.size_pos hlist place.stmt
  obtain ⟨hstate, hreports⟩ := statement_eq a c
  rw [hclauses] at hstate hreports
  have hperform : a.perform (.directive (.numbers size) place d) = _ := hput
  have hb : b = { a with
      contents := appendTo a.contents a.current
        (values.flatMap fun v => Bytes.littleEndian size v.toNat)
      hasContent := true } := by
    rw [show b = a.after (.directive (.numbers size) place d) from hstate, after, hperform]
    rfl
  have hwarnings : reports
      = (values.zip spans).flatMap fun e => Statement.rangeWarnings (8 * size) e.1 e.2 := by
    rw [show reports = (a.perform (.directive (.numbers size) place d)).reports ++ [] from hreports,
      hperform, List.append_nil, Nat.mul_comm]
  have hcontent (id : Nat) : b.content id = a.content id
      ++ if a.current = id then values.flatMap fun v => Bytes.littleEndian size v.toNat
        else [] := by
    rw [hb]
    exact getD_appendTo ..
  refine ⟨?_, ?_, ?_, ?_, ?_⟩
  · simp only [Bytes.littleEndian_mod]
    rw [hcontent, if_pos rfl]
  · intro id hid
    rw [hcontent, if_neg fun heq => hid heq.symm, List.append_nil]
  · rw [hb]
  · rw [hwarnings]
    intro e he
    obtain ⟨p, -, hp⟩ := List.mem_flatMap.mp he
    exact noError_rangeWarnings _ _ _ e hp
  · rw [hwarnings]
    exact forall₂_rangeWarnings (Nat.mul_pos (by decide) h.size_pos) hlength

/-- Three bytes: the largest one, the least negative one, and a number that is cut. -/
theorem byte_directive_encodes :
    let a := ofOptions {}
    let c : Cursor := ⟨0, 0, .ofString "\t.byte 255, -128 ,256"⟩
    (a.statement c).1.content 0 = [0xff, 0x80, 0x00] ∧
      ((a.statement c).2.filterMap Event.report?).length = 1 := by
  intro a c
  have hnone : Statement.IsGap [] := by decide
  have hspace : Statement.IsGap [0x20] := by decide
  have htab : Statement.IsGap [0x09] := by decide
  have hlist : Statement.DecimalList [255, -128, 256] _ :=
    .more .plain hnone hspace (.more (.minus (by decide)) hspace hnone (.last .plain hnone))
  have hbyte : ("byte", 1) ∈ numberDirectives := by decide
  have hstatement : DataStatement 1 [255, -128, 256] _ := .mk htab hbyte hspace (by decide) hlist
  have hdata := number_directives_encode (a := a) (c := c) rfl rfl hstatement (by decide +kernel)
  refine ⟨hdata.1.trans (by decide), ?_⟩
  exact hdata.2.2.2.2.length_eq.symm.trans (by decide)

end Assembler

end CatalystAsm
