import CatalystAsm.Proofs.Assembly.Reachable
import CatalystAsm.Proofs.Source.Line

/-!
# What an assembly keeps

The section table, the bytes of each section and the definitions of symbols are only ever added to.
`Assembler.Extends` says so of two states, and every clause leads to an extension. A label therefore
still marks, at the end of a source, the place where it was written (`Assembly.find?_of_label`).
Section numbers are cut to 32 bits in values; sources are too short to have that many sections
(`Assembly.current_lt`), since each clause takes a byte and makes at most one section.
-/

namespace CatalystAsm

namespace Symbol

/-! ## Lists of symbols -/

/-- What is found has the name that it was looked for by. -/
theorem of_find?_eq_some {l : List Symbol} {name : Bytes} {s : Symbol}
    (h : find? l name = some s) : s ∈ l ∧ s.name = name :=
  ⟨List.mem_of_find?_eq_some h, beq_iff_eq.mp (List.find?_some (p := fun s : Symbol =>
    s.name == name) h)⟩

section

variable {f : Symbol → Symbol} (hf : ∀ s, (f s).name = s.name) (l : List Symbol) (name : Bytes)
  (span : Span)

include hf

/-- What is found after an update. -/
theorem find?_update (n : Bytes) : find? (update l name span f) n
    = if n = name then some (f ((find? l name).getD { name, span })) else find? l n := by
  unfold update
  by_cases hany : l.any (·.name == name) = true
  · -- the symbol is changed where it stands, and no other one has its name changed
    rw [if_pos hany, find?, List.find?_map]
    have hsame : ((fun s : Symbol => s.name == n) ∘ fun s : Symbol =>
        if (s.name == name) = true then f s else s) = fun s => s.name == n := by
      funext s
      dsimp only [Function.comp_apply]
      split
      · rw [hf]
      · rfl
    rw [hsame]
    by_cases hn : n = name
    · subst hn
      obtain ⟨s, hs⟩ := Option.isSome_iff_exists.mp ((List.find?_isSome (p := fun s : Symbol =>
        s.name == n)).mpr (List.any_eq_true.mp hany))
      rw [if_pos rfl, find?, hs, Option.map_some, if_pos (List.find?_some hs)]
      rfl
    · rw [if_neg hn, find?]
      cases hs : l.find? (·.name == n) with
      | none => rfl
      | some s =>
        rw [Option.map_some, if_neg]
        rw [(of_find?_eq_some hs).2, beq_iff_eq]
        exact hn
  · -- the new symbol is looked at last
    rw [if_neg hany, find?, List.find?_append]
    have hnone : l.find? (·.name == name) = none := by
      rw [List.find?_eq_none]
      intro s hs hname
      exact hany (List.any_eq_true.mpr ⟨s, hs, hname⟩)
    have hlast : (f { name, span }).name = name := hf _
    by_cases hn : n = name
    · subst hn
      rw [if_pos rfl, find?, hnone]
      simp [hlast]
    · rw [if_neg hn]
      have hother : ((f { name, span }).name == n) = false := by
        rw [hlast, beq_eq_false_iff_ne]
        exact fun h => hn h.symm
      rw [List.find?_singleton, hother]
      exact Option.or_none

/-- The names after an update. -/
theorem map_name_update : (update l name span f).map (·.name)
    = if name ∈ l.map (·.name) then l.map (·.name) else l.map (·.name) ++ [name] := by
  have hiff : l.any (·.name == name) = true ↔ name ∈ l.map (·.name) := by
    simp only [List.any_eq_true, beq_iff_eq, List.mem_map]
  unfold update
  by_cases hany : l.any (·.name == name) = true
  · rw [if_pos hany, if_pos (hiff.mp hany), List.map_map]
    refine List.map_congr_left fun s _ => ?_
    dsimp only [Function.comp_apply]
    split
    · exact hf s
    · rfl
  · rw [if_neg hany, if_neg (fun h => hany (hiff.mpr h)), List.map_append]
    exact congrArg (_ ++ [·]) (hf _)

end

/-- The symbols of a list have names as statements have them, and different ones. -/
structure Named (l : List Symbol) : Prop where
  nodup : (l.map (·.name)).Nodup
  isName : ∀ n ∈ l.map (·.name), IsName n

/-- An update under a name keeps the names of the list different. -/
theorem Named.update {l : List Symbol} (h : Named l) {f : Symbol → Symbol}
    (hf : ∀ s, (f s).name = s.name) {name : Bytes} (hname : IsName name) (span : Span) :
    Named (update l name span f) := by
  have hnames := map_name_update hf l name span
  split at hnames
  · exact ⟨hnames ▸ h.nodup, hnames ▸ h.isName⟩
  · rename_i hnew
    constructor
    · rw [hnames]
      refine List.nodup_append.mpr ⟨h.nodup, List.nodup_singleton _, ?_⟩
      rintro n hn _ hm rfl
      rw [List.mem_singleton.mp hm] at hn
      exact hnew hn
    · rw [hnames]
      intro n hn
      rcases List.mem_append.mp hn with hn | hn
      · exact h.isName n hn
      · rw [List.mem_singleton.mp hn]
        exact hname

/-- A symbol is defined as a value. -/
structure IsDefinedAs (s : Symbol) (v : Value) : Prop where
  defined : s.defined = true
  value : s.value = v.bits
  home : s.home = if v.relative then some v.home.toNat else none

end Symbol

namespace Assembler

variable {a b c : Assembler}

/-- The definition of a name. -/
def Defines (a : Assembler) (name : Bytes) (v : Value) : Prop :=
  ∃ s, Symbol.find? a.symbols name = some s ∧ s.IsDefinedAs v

/-! ## Extensions -/

/-- The symbols that are defined in the first state have the same value and the same section in the
second one. -/
def KeepsDefinitions (a b : Assembler) : Prop :=
  ∀ name s, Symbol.find? a.symbols name = some s → s.defined = true →
    ∃ t, Symbol.find? b.symbols name = some t ∧ t.defined = true ∧ t.value = s.value ∧
      t.home = s.home

/-- What is defined has the same value later. -/
theorem KeepsDefinitions.defines {name : Bytes} {v : Value} (h : KeepsDefinitions a b)
    (ha : a.Defines name v) : b.Defines name v := by
  obtain ⟨s, hs, hdefined, hvalue, hhome⟩ := ha
  obtain ⟨t, ht, htdefined, htvalue, hthome⟩ := h name s hs hdefined
  exact ⟨t, ht, htdefined, htvalue.trans hvalue, hthome.trans hhome⟩

/-- Without a change of the symbols all definitions stay. -/
theorem keepsDefinitions_of_symbols (h : b.symbols = a.symbols) : KeepsDefinitions a b := by
  intro name s hs hdefined
  rw [h]
  exact ⟨s, hs, hdefined, rfl, rfl⟩

theorem KeepsDefinitions.trans (hab : KeepsDefinitions a b) (hbc : KeepsDefinitions b c) :
    KeepsDefinitions a c := by
  intro name s hs hdefined
  obtain ⟨t, ht, htdefined, htvalue, hthome⟩ := hab name s hs hdefined
  obtain ⟨u, hu, hudefined, huvalue, huhome⟩ := hbc name t ht htdefined
  exact ⟨u, hu, hudefined, huvalue.trans htvalue, huhome.trans hthome⟩

/-- Nothing of the first state is lost in the second one. -/
structure Extends (a b : Assembler) : Prop where
  sections : a.sections <+: b.sections
  contents : ∀ id, a.content id <+: b.content id
  definitions : KeepsDefinitions a b
  exportSymbols : b.options.exportSymbols = a.options.exportSymbols

theorem Extends.refl (a : Assembler) : Extends a a :=
  ⟨List.prefix_rfl, fun _ => List.prefix_rfl, keepsDefinitions_of_symbols rfl, rfl⟩

theorem Extends.trans (hab : Extends a b) (hbc : Extends b c) : Extends a c where
  sections := hab.sections.trans hbc.sections
  contents id := (hab.contents id).trans (hbc.contents id)
  definitions := hab.definitions.trans hbc.definitions
  exportSymbols := hbc.exportSymbols.trans hab.exportSymbols

/-- A change of the table alone. -/
theorem extends_of_sections (hsections : a.sections <+: b.sections)
    (hcontents : b.contents = a.contents) (hsymbols : b.symbols = a.symbols)
    (hoptions : b.options = a.options) : Extends a b where
  sections := hsections
  contents id := by
    have hsame : b.content id = a.content id := congrArg (·.getD id []) hcontents
    exact hsame ▸ List.prefix_rfl
  definitions := keepsDefinitions_of_symbols hsymbols
  exportSymbols := by rw [hoptions]

/-- A change of the symbols alone. -/
theorem extends_of_symbols {l : List Symbol}
    (h : KeepsDefinitions a { a with symbols := l }) :
    Extends a { a with symbols := l } :=
  ⟨List.prefix_rfl, fun _ => List.prefix_rfl, h, rfl⟩

/-- Growing the table loses nothing. -/
theorem Grown.extends {scope : Scope} (h : Grown scope a b) : Extends a b := by
  cases h with
  | same => exact .refl a
  | kernel name => exact extends_of_sections (List.prefix_append _ _) rfl rfl rfl
  | own => exact extends_of_sections (List.prefix_append _ _) rfl rfl rfl
  | config => exact extends_of_sections (List.prefix_append _ _) rfl rfl rfl
  | extra => exact extends_of_sections (List.prefix_append _ _) rfl rfl rfl

/-- Moving loses nothing. -/
theorem Moved.extends (h : Moved a b) : Extends a b := by
  cases h with
  | same => exact .refl a
  | move =>
    exact extends_of_sections (sections_moveTo .. ▸ List.prefix_rfl) (contents_moveTo ..)
      (symbols_moveTo ..) (options_moveTo ..)

/-- Filling something in loses nothing. -/
theorem Filled.extends (h : Filled a b) : Extends a b := by
  cases h with
  | put bytes =>
    refine ⟨List.prefix_rfl, fun id => ?_, keepsDefinitions_of_symbols rfl, rfl⟩
    show _ <+: (appendTo a.contents a.current bytes).getD id []
    rw [getD_appendTo]
    exact List.prefix_append _ _
  | @define name span v _ hundefined _ =>
    refine extends_of_symbols ?_
    intro n s hs hdefined
    refine ⟨s, ?_, hdefined, rfl, rfl⟩
    show Symbol.find? (Symbol.update a.symbols name span (·.define v span)) n = some s
    rw [Symbol.find?_update (f := (·.define v span)) fun _ => rfl, if_neg, hs]
    -- a name that has a definition is not defined again
    rintro rfl
    exact Bool.false_ne_true ((hundefined s hs).symm.trans hdefined)
  | @mark f names hkeeps _ =>
    refine extends_of_symbols fun n s hs hdefined => ?_
    refine List.foldlRecOn (motive := fun l : List Symbol => ∃ t, Symbol.find? l n = some t ∧
      t.defined = true ∧ t.value = s.value ∧ t.home = s.home) names _ ⟨s, hs, hdefined, rfl, rfl⟩ ?_
    rintro l ⟨t, ht, htdefined, htvalue, hthome⟩ m _
    rw [Symbol.find?_update fun s => (hkeeps s).1]
    split
    · rename_i heq
      subst heq
      obtain ⟨-, hdefined, hvalue, hhome⟩ := hkeeps t
      refine ⟨f t, by rw [ht]; rfl, ?_⟩
      exact ⟨hdefined.trans htdefined, hvalue.trans htvalue, hhome.trans hthome⟩
    · exact ⟨t, ht, htdefined, htvalue, hthome⟩
  | _ =>
    exact ⟨List.prefix_rfl, fun _ => List.prefix_rfl, keepsDefinitions_of_symbols rfl, rfl⟩

/-- A step loses nothing. -/
theorem StepIn.extends {scope : Scope} (h : StepIn scope a b) : Extends a b := by
  obtain ⟨d, ⟨c, hgrown, hmoved⟩, hfilled, -⟩ := h
  exact (hgrown.extends.trans hmoved.extends).trans hfilled.extends

/-- **Clauses lose nothing.** -/
theorem Consistent.extends_afterAll (h : a.Consistent) (l : List Clause) :
    Extends a (a.afterAll l) :=
  (h.afterAll_induction (P := Extends a) (.refl a) (fun _ _ _ hb hstep => hb.trans hstep.extends)
    l).2

/-! ## Names -/

/-- What is filled in keeps the names of the symbols different. -/
theorem Filled.named_symbols (h : Filled a b) (ha : Symbol.Named a.symbols) :
    Symbol.Named b.symbols := by
  cases h with
  | @define name span v hname => exact ha.update (f := (·.define v span)) (fun _ => rfl) hname span
  | @mark f names hkeeps hnames =>
    refine List.foldlRecOn (motive := Symbol.Named) names _ ha ?_
    intro l hl n hn
    exact hl.update (fun s => (hkeeps s).1) (hnames n hn) n.2
  | _ => exact ha

/-- A step keeps the names of the symbols different. -/
theorem StepIn.named_symbols {scope : Scope} (h : StepIn scope a b)
    (ha : Symbol.Named a.symbols) : Symbol.Named b.symbols := by
  obtain ⟨d, ⟨c, hgrown, hmoved⟩, hfilled, -⟩ := h
  have hc : c.symbols = a.symbols := by
    cases hgrown <;> rfl
  have hd : d.symbols = c.symbols := by
    cases hmoved with
    | same => rfl
    | move => exact symbols_moveTo ..
  refine hfilled.named_symbols ?_
  rw [hd, hc]
  exact ha

/-- The symbols of a reachable state have different names. -/
theorem Reachable.named (h : Reachable a) : Symbol.Named a.symbols :=
  (h.invariant (P := fun a => Symbol.Named a.symbols)
    (fun _ => ⟨List.nodup_nil, fun _ hn => absurd hn List.not_mem_nil⟩)
    fun _ _ _ hb hstep => hstep.named_symbols hb).2

/-! ## The number of sections -/

/-- A step adds at most one section. -/
theorem StepIn.length_sections_le {scope : Scope} (h : StepIn scope a b) :
    b.sections.length ≤ a.sections.length + 1 := by
  obtain ⟨d, ⟨c, hgrown, hmoved⟩, hfilled, -⟩ := h
  have hc : c.sections.length ≤ a.sections.length + 1 := by
    cases hgrown with
    | same => exact Nat.le_succ _
    | kernel name => exact Nat.le_of_eq List.length_append
    | own => exact Nat.le_of_eq List.length_append
    | config => exact Nat.le_of_eq List.length_append
    | extra => exact Nat.le_of_eq List.length_append
  have hd : d.sections = c.sections := by
    cases hmoved with
    | same => rfl
    | move => exact sections_moveTo ..
  have hb : b.sections = d.sections := by
    cases hfilled <;> rfl
  rw [hb, hd]
  exact hc

/-- A clause makes at most one section. -/
theorem Consistent.length_sections_afterAll (h : a.Consistent) (l : List Clause) :
    (a.afterAll l).sections.length ≤ a.sections.length + l.length := by
  induction l generalizing a with
  | nil => exact Nat.le_refl _
  | cons x l ih =>
    have hstep := h.step_after x
    have hfirst := hstep.length_sections_le
    have hrest := ih (h.step hstep)
    rw [List.length_cons]
    show ((a.after x).afterAll l).sections.length ≤ _
    omega

end Assembler

/-! ## The number of clauses -/

/-- A statement that is not blank has a byte. -/
theorem Cursor.length_rest_pos {c : Cursor} (h : ¬c.skipBlanks.atLimit = true) :
    0 < c.rest.length := by
  have hblanks := c.length_rest_skipBlanks
  have hpos : 0 < c.skipBlanks.rest.length := by
    rw [List.length_pos_iff]
    intro hnil
    rw [Cursor.atLimit, hnil] at h
    exact h rfl
  omega

/-- A statement has at most as many clauses as bytes. -/
theorem Clause.length_ofStatement_le (c : Cursor) : (ofStatement c).length ≤ c.rest.length := by
  fun_induction ofStatement c with
  | case1 c start hlimit => exact Nat.zero_le _
  | case2 c start stmt hlimit hn => exact Cursor.length_rest_pos hlimit
  | case3 c start hlimit name d hn span e hl ih =>
    have := Cursor.length_rest_eat? hl
    have := d.length_rest_skipBlanks
    have : d.rest.length < c.skipBlanks.rest.length := Statement.length_rest_name? hn
    have := c.length_rest_skipBlanks
    rw [List.length_cons]
    omega
  | case4 c start hlimit => exact Cursor.length_rest_pos hlimit
  | case5 c start stmt hlimit => exact Cursor.length_rest_pos hlimit
  | case6 c start stmt hlimit => exact Cursor.length_rest_pos hlimit

/-- The statement of a line is not longer than the line. -/
theorem Cursor.length_rest_ofRange_le (file : UInt32) (content : Bytes) (start stop : Nat) :
    (ofRange file content start stop).rest.length ≤ stop - start := by
  rw [ofRange, List.length_take]
  omega

/-- Lines do not overlap: together they are not longer than the text. -/
theorem sum_linesFrom_le (start off : Nat) (b : Bytes) (h : start ≤ off) :
    ((linesFrom start off b).map fun e => e.2 - e.1).sum ≤ off + b.length - start := by
  fun_induction linesFrom start off b with
  | case1 start off => simp
  | case2 start off b rest hnewline ih =>
    have hrest := ih (Nat.le_refl _)
    rw [List.map_cons, List.sum_cons, List.length_cons]
    dsimp only
    omega
  | case3 start off b rest hother ih =>
    have hrest := ih (Nat.le_succ_of_le h)
    rw [List.length_cons]
    omega

/-- A file as file sets hold them: with the places of its newlines, and short enough for offsets of
32 bits. -/
structure SourceFile.WellFormed (f : SourceFile) : Prop where
  newlines : f.newlines = newlineOffsets 0 f.content
  length_lt : f.content.length < UInt32.size

/-- A set of such files stays one when a short enough text is added. -/
theorem FileSet.wellFormed_add {fs : FileSet} (h : ∀ f ∈ fs.files, f.WellFormed) (path : Bytes)
    {content : Bytes} (hlen : content.length < UInt32.size) (flags : FileFlags) :
    ∀ f ∈ (fs.add path content flags).files, f.WellFormed := by
  intro f hf
  rcases List.mem_append.mp hf with hf | hf
  · exact h f hf
  · rw [List.mem_singleton.mp hf]
    exact ⟨rfl, hlen⟩

theorem length_flatMap_le {α β : Type} {f : α → List β} {g : α → Nat}
    (h : ∀ x, (f x).length ≤ g x) (l : List α) : (l.flatMap f).length ≤ (l.map g).sum := by
  induction l with
  | nil => exact Nat.zero_le _
  | cons x l ih =>
    rw [List.flatMap_cons, List.length_append, List.map_cons, List.sum_cons]
    exact Nat.add_le_add (h x) ih

/-- **A source has at most as many clauses as bytes.** -/
theorem Clause.length_ofFile_le {f : SourceFile} (hf : f.WellFormed) (cancelled : Option Nat) :
    (ofFile f cancelled).length ≤ f.content.length := by
  have hall : ((Assembly.cursors f).flatMap ofStatement).length ≤ f.content.length := by
    have hline (e : Nat × Nat) : (ofStatement (.ofRange f.id f.content e.1
        (Statement.statementEnd f.content e.1 e.2))).length ≤ e.2 - e.1 := by
      have hclauses := length_ofStatement_le (.ofRange f.id f.content e.1
        (Statement.statementEnd f.content e.1 e.2))
      have hrest := Cursor.length_rest_ofRange_le f.id f.content e.1
        (Statement.statementEnd f.content e.1 e.2)
      have hend := Statement.statementEnd_le f.content e.1 e.2
      omega
    have hlines := sum_linesFrom_le 0 0 f.content (Nat.le_refl 0)
    rw [← SourceFile.lineRanges_eq hf.newlines, Nat.zero_add] at hlines
    rw [Assembly.cursors, List.flatMap_map]
    exact Nat.le_trans (length_flatMap_le hline _) hlines
  cases cancelled with
  | none => exact hall
  | some check =>
    -- a cancelled run reads the first of these lines
    rw [← List.take_append_drop (Assembly.linesBefore check) (Assembly.cursors f),
      List.flatMap_append, List.length_append] at hall
    exact Nat.le_of_add_right_le hall

/-! ## Definitions -/

namespace Assembler

variable {a : Assembler}

/-- A symbol has the value that it was just defined as. -/
theorem defines_update (a : Assembler) (name : Bytes) (span : Span) (v : Value) :
    ({ a with symbols := Symbol.update a.symbols name span (·.define v span) } :
      Assembler).Defines name v := by
  refine ⟨((Symbol.find? a.symbols name).getD { name, span }).define v span, ?_, rfl, rfl, rfl⟩
  show Symbol.find? (Symbol.update a.symbols name span (·.define v span)) name = _
  rw [Symbol.find?_update (f := (·.define v span)) fun _ => rfl, if_pos rfl]

/-- Unless an error is reported, the name is defined as the value. -/
theorem yields_defineSymbol (a : Assembler) (name : Bytes) (span : Span) (v : Value) :
    (a.defineSymbol name span v).Yields (·.Defines name v) := by
  unfold defineSymbol
  dsimp only
  split
  · split
    · exact Outcome.yields_stop rfl
    · exact Outcome.yields_done (defines_update a name span v)
  · exact Outcome.yields_done (defines_update a name span v)

/-- A label that is not refused marks the place where the assembly stands. -/
theorem yields_defineLabel (a : Assembler) (name : Bytes) (span : Span) :
    (a.defineLabel name span).Yields (·.Defines name a.here) := by
  unfold defineLabel
  split
  · exact Outcome.yields_fail _ _
  · split
    · exact yields_defineSymbol a name span a.here
    · exact Outcome.yields_fail _ _

/-- An assignment that is not refused defines its name as the value of its expression. -/
theorem yields_assign (a : Assembler) (name : Bytes) (span : Span) (c : Cursor) :
    ((a.assign name span).run c).Yields fun b =>
      ∃ v w d, Statement.expression a.lookup c = .ok ((v, w), d) ∧ b.Defines name v := by
  unfold assign
  rw [ArgReader.run_bind]
  refine (Outcome.yields_ofScanned (.expression a.lookup) c).andThen ?_
  rintro ⟨⟨v, w⟩, d⟩ hread
  rw [ArgReader.run_bind]
  refine (Outcome.yields_ofScanned .noGarbage d).andThen fun e _ => ?_
  refine Outcome.Yields.andThen (Outcome.Yields.andThen (yields_defineSymbol a name span v)
    fun b hb => Outcome.yields_done (P := fun r : Assembler × Cursor => r.1.Defines name v) hb) ?_
  intro r hr
  exact Outcome.yields_done ⟨v, w, d, hread, hr⟩

/-- Without an error the state after a clause is what the clause yields. -/
theorem after_of_yields {x : Clause} {P : Assembler → Prop} (hx : (a.perform x).Yields P)
    (hno : NoError (a.perform x).reports) : P (a.after x) := by
  obtain ⟨b, hb, hP⟩ := hx hno
  have hafter : a.after x = b := by
    rw [after, hb]
    rfl
  exact hafter ▸ hP

/-- What a clause without an error defines is still defined after the clauses behind it, and
nothing is lost. -/
theorem Consistent.of_split (h : a.Consistent) {pre post : List Clause} {x : Clause}
    (hno : NoError (a.reportsAll (pre ++ x :: post))) {P : Assembler → Prop}
    (hx : ((a.afterAll pre).perform x).Yields P) : ∃ b, P b ∧
      Extends b (a.afterAll (pre ++ x :: post)) ∧
      Extends (a.afterAll pre) (a.afterAll (pre ++ x :: post)) := by
  have hpre := h.afterAll pre
  have hstep := hpre.step_after x
  rw [reportsAll_append] at hno
  obtain ⟨-, hno⟩ := noError_append_iff.mp hno
  obtain ⟨hno, -⟩ := noError_append_iff.mp hno
  have hrest := (hpre.step hstep).extends_afterAll post
  rw [afterAll_append]
  exact ⟨_, after_of_yields hx hno, hrest, hstep.extends.trans hrest⟩

end Assembler

namespace Assembly

open Assembler

variable {options : Options} {f : SourceFile} {cancelled : Option Nat} {pre post : List Clause}
  {name : Bytes} {isName : IsName name} {span : Span}

/-- The section where a clause is executed has a number of 32 bits. -/
theorem current_lt (hf : f.WellFormed) {x : Clause}
    (hsplit : Clause.ofFile f cancelled = pre ++ x :: post) :
    ((ofOptions options).afterAll pre).current < UInt32.size := by
  have hconsistent := consistent_ofOptions options
  have hcurrent := (hconsistent.afterAll pre).current.lt
  have hsections := hconsistent.length_sections_afterAll pre
  have hclauses := Clause.length_ofFile_le hf cancelled
  rw [hsplit, List.length_append, List.length_cons] at hclauses
  have hone : (ofOptions options).sections.length = 1 := rfl
  have hsize := hf.length_lt
  omega

/-- **A label marks the place where it was written**, also when the source has been read to its
end, and the bytes before it are still there. -/
theorem find?_of_label (hf : f.WellFormed)
    (hdone : (ofFile options f cancelled).succeeded = true)
    (hsplit : Clause.ofFile f cancelled = pre ++ .label name isName span :: post) :
    let p := (ofOptions options).afterAll pre
    let a := (ofFile options f cancelled).state
    p.content p.current <+: a.content p.current ∧
      ∃ s, Symbol.find? a.symbols name = some s ∧ s.defined = true ∧
        s.home = some p.current ∧ s.value = UInt64.ofNat p.position := by
  intro p a
  have hno := noError_of_succeeded hdone
  obtain ⟨hstate, hreports⟩ := ofFile_eq options f cancelled
  rw [hreports, hsplit] at hno
  obtain ⟨b, hb, hextends, hpre⟩ := (consistent_ofOptions options).of_split hno
    (yields_defineLabel p name span)
  rw [← hsplit, ← hstate] at hextends hpre
  refine ⟨hpre.contents _, ?_⟩
  obtain ⟨s, hs, hdefined, hvalue, hhome⟩ := hextends.definitions.defines hb
  refine ⟨s, hs, hdefined, ?_, hvalue⟩
  rw [hhome]
  exact congrArg some (UInt32.toNat_ofNat_of_lt' (current_lt hf hsplit))

/-- An assignment defines its name for the whole source. -/
theorem find?_of_assignment {c : Cursor} (hdone : (ofFile options f cancelled).succeeded = true)
    (hsplit : Clause.ofFile f cancelled = pre ++ .assignment name isName span c :: post) :
    let p := (ofOptions options).afterAll pre
    let a := (ofFile options f cancelled).state
    ∃ v w d s, Statement.expression p.lookup c = .ok ((v, w), d) ∧
      Symbol.find? a.symbols name = some s ∧ s.IsDefinedAs v := by
  intro p a
  have hno := noError_of_succeeded hdone
  obtain ⟨hstate, hreports⟩ := ofFile_eq options f cancelled
  rw [hreports, hsplit] at hno
  obtain ⟨b, ⟨v, w, d, hread, hb⟩, hextends, -⟩ := (consistent_ofOptions options).of_split hno
    (yields_assign p name span c)
  rw [← hsplit, ← hstate] at hextends
  obtain ⟨s, hs, hv⟩ := hextends.definitions.defines hb
  exact ⟨v, w, d, s, hread, hs, hv⟩

end Assembly

end CatalystAsm
