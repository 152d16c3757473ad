import CatalystAsm.Proofs.Statement.Arithmetic
import CatalystAsm.Proofs.Statement.Numeral

/-!
# The grammar of expressions

An expression is a tree of operators over numbers and symbols. It is written with the signs of its
operators between their operands, with parentheses at least where the precedence of the operators
and their grouping to the left ask for them, and with blanks between any two tokens. Whichever way a
tree is written, the parser gives what the tree evaluates to, operands before operators
(`expression_written`).
-/

namespace CatalystAsm.Statement

/-! ## Trees -/

/-- An expression as a tree. -/
inductive Tree where
  | literal (n : UInt64)
  | symbol (name : Bytes)
  | unary (op : UnaryOp) (operand : Tree)
  | binary (op : BinaryOp) (left right : Tree)
  deriving DecidableEq, Repr

namespace Tree

/-- What a tree stands for, found from its operands upwards, or what was met on the way. -/
def quantity (symbols : Resolver) : Tree → Except Obstacle Quantity
  | literal n => .ok (.absolute n)
  | symbol name =>
    match symbols name with
    | some v => .ok v.quantity
    | none => .error .undefinedSymbol
  | unary op operand => operand.quantity symbols >>= op.combine
  | binary op left right =>
    left.quantity symbols >>= fun x => right.quantity symbols >>= op.combine x

/-- The value of a tree under the operators of the parser. -/
def value (symbols : Resolver) : Tree → Except (List Fault) Value
  | literal n => .ok { bits := n }
  | symbol name =>
    match symbols name with
    | some v => .ok v
    | none => .error [.undefinedSymbol name]
  | unary op operand => operand.value symbols >>= fun v => v.applyUnary op
  | binary op left right =>
    left.value symbols >>= fun v => right.value symbols >>= fun w => v.apply op w

/-- The value of a tree is what the tree stands for. -/
theorem shows_value (symbols : Resolver) (tree : Tree) :
    Value.Shows (tree.value symbols) (tree.quantity symbols) := by
  induction tree with
  | literal n => exact .value { bits := n }
  | symbol name =>
    rw [value, quantity]
    cases symbols name with
    | none => exact .fault rfl
    | some v => exact .value v
  | unary op operand ih => exact ih.bind fun v => Value.shows_applyUnary op v
  | binary op left right hleft hright =>
    exact hleft.bind fun v => hright.bind fun w => Value.shows_apply op v w

end Tree

/-! ## Texts -/

/-- The binary operators as they are written, weakest first; those of one line bind equally. -/
def precedence : List (List (BinaryOp × String)) := [
  [(.orElse, "||")],
  [(.andAlso, "&&")],
  [(.bitOr, "|")],
  [(.bitXor, "^")],
  [(.bitAnd, "&")],
  [(.equal, "=="), (.notEqual, "!=")],
  [(.less, "<"), (.lessEqual, "<="), (.greater, ">"), (.greaterEqual, ">=")],
  [(.shiftLeft, "<<"), (.shiftRight, ">>")],
  [(.add, "+"), (.subtract, "-")],
  [(.multiply, "*"), (.divide, "/"), (.remainder, "%")]]

/-- The unary operators as they are written. -/
def signs : List (UnaryOp × String) := [
  (.plus, "+"), (.minus, "-"), (.complement, "~"), (.negate, "!")]

/-- Every operator has its place. -/
example : (precedence.flatten.map (·.1)).Perm BinaryOp.all := by decide

/-- Whether a text consists of blanks. -/
def IsGap (gap : Bytes) : Prop := ∀ b ∈ gap, Cursor.isBlank b = true

instance (gap : Bytes) : Decidable (IsGap gap) :=
  List.decidableBAll (fun b => Cursor.isBlank b = true) gap

/-- No name has a blank in it. -/
theorem isNameByte_of_isBlank {b : UInt8} (hb : Cursor.isBlank b = true) :
    isNameByte b = false := by
  simp only [Cursor.isBlank, Bool.or_eq_true, beq_iff_eq] at hb
  rcases hb with (((rfl | rfl) | rfl) | rfl) | rfl <;> rfl

/-- The ways to write a tree where only operators from a line of the precedence on may stand outside
parentheses. A left operand may repeat the line of its operator, a right operand may not, and a
unary operator takes no binary operator without parentheses. -/
inductive Written : Nat → Tree → Bytes → Prop
  | literal {level : Nat} {n : UInt64} {text : Bytes} (h : Numeral text n.toNat) :
    Written level (.literal n) text
  | symbol {level : Nat} {b : UInt8} {name : Bytes} (hb : isNameStart b = true)
    (hname : ∀ b ∈ name, isNameByte b = true) : Written level (.symbol (b :: name)) (b :: name)
  | unary {level : Nat} {op : UnaryOp} {sign : String} {operand : Tree} {text : Bytes}
    (hop : (op, sign) ∈ signs) (h : Written precedence.length operand text) :
    Written level (.unary op operand) (.ofString sign ++ text)
  | binary {level line : Nat} {op : BinaryOp} {sign : String} {left right : Tree}
    {l gap r : Bytes} (hlevel : level ≤ line) (hop : (op, sign) ∈ precedence.getD line [])
    (hleft : Written line left l) (hgap : IsGap gap) (hright : Written (line + 1) right r) :
    Written level (.binary op left right) (l ++ gap ++ .ofString sign ++ r)
  | parentheses {level : Nat} {tree : Tree} {text gap : Bytes} (h : Written 0 tree text)
    (hgap : IsGap gap) : Written level tree (.ofString "(" ++ text ++ gap ++ .ofString ")")
  | blank {level : Nat} {tree : Tree} {b : UInt8} {text : Bytes} (hb : Cursor.isBlank b = true)
    (h : Written level tree text) : Written level tree (b :: text)

/-- The table of operators is the one that the parser has. -/
theorem of_mem_precedence {line : Nat} {op : BinaryOp} {sign : String}
    (h : (op, sign) ∈ precedence.getD line []) :
    line < precedence.length ∧ op.strength = line + 1 ∧ op.spelling = .ofString sign := by
  have hall : ∀ line < precedence.length, ∀ e ∈ precedence.getD line [],
      e.1.strength = line + 1 ∧ e.1.spelling = .ofString e.2 := by decide +kernel
  have hline : line < precedence.length := by
    by_contra hge
    rw [List.getD_eq_getElem?_getD, List.getElem?_eq_none (Nat.not_lt.mp hge)] at h
    exact absurd h List.not_mem_nil
  exact ⟨hline, hall line hline _ h⟩

/-- The sign of a unary operator is one byte, which is not blank. -/
theorem of_mem_signs {op : UnaryOp} {sign : String} (h : (op, sign) ∈ signs) :
    ∃ b, Bytes.ofString sign = [b] ∧ UnaryOp.ofByte? b = some op ∧ Cursor.isBlank b = false := by
  have hall : ∀ e ∈ signs, Bytes.ofString e.2 = [e.1.spelling] ∧
      UnaryOp.ofByte? e.1.spelling = some e.1 ∧ Cursor.isBlank e.1.spelling = false := by
    decide +kernel
  exact ⟨_, hall _ h⟩

/-! ## First bytes -/

/-- Whether an operand may begin with a byte, blanks before it included. -/
def beginsOperand (b : UInt8) : Bool :=
  Cursor.isBlank b || isNameByte b || (UnaryOp.ofByte? b).isSome || b == 0x28

/-- A written tree has a first byte, and an operand may begin with it. -/
theorem Written.exists_head {level : Nat} {tree : Tree} {text : Bytes}
    (h : Written level tree text) : ∃ b rest, text = b :: rest ∧ beginsOperand b = true := by
  induction h with
  | literal h =>
    obtain ⟨b, rest, htext, hb⟩ := h.exists_head
    exact ⟨b, rest, htext, by simp [beginsOperand, isNameByte, hb]⟩
  | symbol hb => exact ⟨_, _, rfl, by simp [beginsOperand, isNameByte, hb]⟩
  | unary hop =>
    obtain ⟨b, hsign, hb, -⟩ := of_mem_signs hop
    exact ⟨b, _, by rw [hsign]; rfl, by simp [beginsOperand, hb]⟩
  | binary _ _ _ _ _ hleft =>
    obtain ⟨b, rest, rfl, hb⟩ := hleft
    exact ⟨b, _, rfl, hb⟩
  | parentheses => exact ⟨0x28, _, rfl, rfl⟩
  | blank hb => exact ⟨_, _, rfl, by simp [beginsOperand, hb]⟩

/-- An operator is recognised where an operand follows it: no longer operator begins with it. -/
theorem atStart?_spelling (op : BinaryOp) {b : UInt8} (hb : beginsOperand b = true) (rest : Bytes) :
    BinaryOp.atStart? (op.spelling ++ b :: rest) = some op := by
  have hne (x : UInt8) (hx : beginsOperand x = false) : (x == b) = false := by
    rw [BEq.comm]
    exact beq_eq_false_of_class hb hx
  have hequals := hne 0x3d (by decide)
  have hless := hne 0x3c (by decide)
  have hgreater := hne 0x3e (by decide)
  have hor := hne 0x7c (by decide)
  have hand := hne 0x26 (by decide)
  cases op <;>
    simp [BinaryOp.atStart?, BinaryOp.all, BinaryOp.spelling, List.isPrefixOf, hequals, hless,
      hgreater, hor, hand]

/-! ## Reading -/

/-- What may follow a text of a level: no name goes on, and an operator that comes next does not
take the last operand away. -/
structure Follows (level : Nat) (rest : Bytes) : Prop where
  endsName : EndsName rest
  operator : ∀ op, BinaryOp.atStart? (rest.dropWhile Cursor.isBlank) = some op →
    op.strength ≤ level + 1

/-- What may follow a text may follow one whose operators bind more tightly. -/
theorem Follows.mono {least level : Nat} {rest : Bytes} (h : Follows least rest)
    (hle : least ≤ level) : Follows level rest where
  endsName := h.endsName
  operator op hop := (h.operator op hop).trans (Nat.succ_le_succ hle)

/-- No name goes on at a blank, and blanks before an operator make no difference. -/
theorem Follows.gap {level : Nat} {gap rest : Bytes} (h : Follows level rest) (hgap : IsGap gap) :
    Follows level (gap ++ rest) where
  endsName := by
    cases gap with
    | nil => exact h.endsName
    | cons b gap =>
      intro x hx
      obtain rfl : b = x := Option.some.inj hx
      exact isNameByte_of_isBlank (hgap b List.mem_cons_self)
  operator := by
    rw [List.dropWhile_append_of_pos hgap]
    exact h.operator

/-- No operator begins with a byte of a name or with a blank. -/
theorem exists_spelling_head (op : BinaryOp) :
    ∃ b rest, op.spelling = b :: rest ∧ isNameByte b = false ∧ Cursor.isBlank b = false := by
  cases op <;> exact ⟨_, _, rfl, by decide, by decide⟩

/-- After an operand, an operator of its line may follow. -/
theorem follows_operator {level : Nat} {op : BinaryOp} (hop : op.strength ≤ level + 1) {b : UInt8}
    (hb : beginsOperand b = true) (rest : Bytes) : Follows level (op.spelling ++ b :: rest) := by
  have hstart := atStart?_spelling op hb rest
  obtain ⟨x, tail, hspelling, hname, hblank⟩ := exists_spelling_head op
  rw [hspelling] at hstart ⊢
  constructor
  · intro y hy
    obtain rfl : x = y := Option.some.inj hy
    exact hname
  · intro op' hop'
    rw [List.cons_append, List.dropWhile_cons_of_neg (by simp [hblank]), ← List.cons_append,
      hstart] at hop'
    cases hop'
    exact hop

/-- A closing parenthesis, a comma or the end may follow any operand. -/
theorem follows_of_head {level : Nat} {rest : Bytes}
    (h : ∀ b, rest.head? = some b → b = 0x29 ∨ b = commaByte) : Follows level rest := by
  cases rest with
  | nil => exact ⟨fun _ hb => absurd hb (by simp), fun op hop => by cases hop⟩
  | cons b rest =>
    rcases h b rfl with rfl | rfl
    · refine ⟨fun _ hb => ?_, fun op hop => ?_⟩
      · obtain rfl := Option.some.inj hb
        rfl
      · cases hop
    · refine ⟨fun _ hb => ?_, fun op hop => ?_⟩
      · obtain rfl := Option.some.inj hb
        rfl
      · cases hop

/-- Operators that do not bind more tightly than `least` are left to the caller. -/
theorem readOperators_of_le {symbols : Resolver} {least : Nat} {c : Cursor}
    (h : ∀ op, BinaryOp.atStart? (c.rest.dropWhile Cursor.isBlank) = some op → op.strength ≤ least)
    (start : Cursor) (left : Value) :
    readOperators symbols least start left c = .ok (left, c.skipBlanks) := by
  rw [readOperators_eq, Cursor.rest_skipBlanks]
  cases hop : BinaryOp.atStart? (c.rest.dropWhile Cursor.isBlank) with
  | none => rfl
  | some op => exact if_pos (h op hop)

/-- An operator that binds more tightly than `least` is applied to the operand after it. -/
theorem readOperators_spelling {symbols : Resolver} {least : Nat} {c : Cursor} {op : BinaryOp}
    {b : UInt8} {gap rest : Bytes} (hrest : c.rest = gap ++ (op.spelling ++ b :: rest))
    (hgap : IsGap gap) (hb : beginsOperand b = true) (hop : least < op.strength) (start : Cursor)
    (left : Value) :
    readOperators symbols least start left c
      = readBinary symbols op.strength ((c.advance gap.length).advance op.spelling.length) >>=
        fun r => left.apply op r.1 >>= fun v => readOperators symbols least start v r.2 := by
  have hskip : c.skipBlanks = c.advance gap.length := by
    refine Cursor.skipBlanks_eq hrest hgap fun x hx => ?_
    obtain ⟨y, tail, hspelling, -, hblank⟩ := exists_spelling_head op
    rw [hspelling] at hx
    obtain rfl : y = x := Option.some.inj hx
    exact hblank
  have hstart : BinaryOp.atStart? (c.advance gap.length).rest = some op := by
    rw [Cursor.rest_advance hrest]
    exact atStart?_spelling op hb rest
  rw [readOperators_eq, hskip, hstart]
  exact if_neg (Nat.not_le.mpr hop)

theorem readOperators_skipBlanks (symbols : Resolver) (least : Nat) (start : Cursor) (left : Value)
    (c : Cursor) :
    readOperators symbols least start left c.skipBlanks
      = readOperators symbols least start left c := by
  rw [readOperators_eq, Cursor.skipBlanks_skipBlanks, ← readOperators_eq]

variable {symbols : Resolver} {level : Nat} {tree : Tree} {text rest : Bytes}

/-- The operand of a text is read as the tree. -/
def ReadsOperand (symbols : Resolver) (tree : Tree) (text : Bytes) : Prop :=
  ∀ (c : Cursor) (rest : Bytes), c.rest = text ++ rest → EndsName rest →
    readUnary symbols c
      = tree.value symbols >>= fun v => .ok (v, c.advance text.length)

/-- Reading a text leads to the tree as the left operand of what follows. -/
def LeadsOn (symbols : Resolver) (level : Nat) (tree : Tree) (text : Bytes) : Prop :=
  ∀ (c start : Cursor) (least : Nat) (rest : Bytes), c.rest = text ++ rest → least ≤ level →
    Follows level rest →
    (readUnary symbols c >>= fun r => readOperators symbols least start r.1 r.2)
      = tree.value symbols >>= fun v => readOperators symbols least start v (c.advance text.length)

/-- An operand leads on to the operators behind it. -/
theorem ReadsOperand.leadsOn (h : ReadsOperand symbols tree text) (level : Nat) :
    LeadsOn symbols level tree text := by
  intro c start least rest hrest _ hfollows
  rw [h c rest hrest hfollows.endsName, bind_assoc]
  rfl

/-- A name byte begins a number or a symbol. -/
theorem readUnary_of_isNameByte {c : Cursor} {b : UInt8} (hrest : c.rest = b :: rest)
    (hb : isNameByte b = true) : readUnary symbols c = readAtom symbols c := by
  have hne (x : UInt8) (hx : isNameByte x = false) : (b == x) = false :=
    beq_eq_false_of_class hb hx
  have hblank : Cursor.isBlank b = false := by
    simp only [Cursor.isBlank, hne 0x20 (by decide), hne 0x09 (by decide), hne 0x0b (by decide),
      hne 0x0c (by decide), hne 0x0d (by decide), Bool.or_false]
  have hsign : UnaryOp.ofByte? b = none := by
    simp only [UnaryOp.ofByte?, hne 0x2b (by decide), hne 0x2d (by decide), hne 0x7e (by decide),
      hne 0x21 (by decide), Bool.false_eq_true, if_false]
  have hskip : c.skipBlanks = c := Cursor.skipBlanks_of_cons hrest hblank
  rw [readUnary_eq, hskip]
  conv_lhs => rw [hrest]
  dsimp only
  rw [hsign]
  dsimp only
  rw [hne 0x28 (by decide), if_neg Bool.false_ne_true]

/-- A numeral is read as a literal. -/
theorem readsOperand_literal {n : UInt64} (h : Numeral text n.toNat) :
    ReadsOperand symbols (.literal n) text := by
  intro c rest hrest hend
  obtain ⟨b, tail, rfl, hb⟩ := h.exists_head
  have hquote : (b == singleQuote) = false := beq_eq_false_of_class hb (by decide)
  have hpeek : c.peek? = some b := by
    rw [Cursor.peek?, hrest]
    rfl
  rw [readUnary_of_isNameByte hrest (by simp [isNameByte, hb]), readAtom_eq, hpeek]
  dsimp only
  rw [hquote, hb, if_neg Bool.false_ne_true, if_pos rfl,
    integer_numeral h hrest n.toNat_lt hend, UInt64.ofNat_toNat]
  rfl

/-- A name is read up to where no name goes on. -/
theorem name?_eq {c : Cursor} {b : UInt8} {name : Bytes} (hrest : c.rest = b :: name ++ rest)
    (hb : isNameStart b = true) (hname : ∀ b ∈ name, isNameByte b = true) (hend : EndsName rest) :
    name? c = some (b :: name, c.advance (b :: name).length) := by
  have hall : ∀ x ∈ b :: name, isNameByte x = true := by
    intro x hx
    rcases List.mem_cons.mp hx with rfl | hx
    · simp [isNameByte, hb]
    · exact hname x hx
  have hskip : c.skipWhile isNameByte = c.advance (b :: name).length :=
    Cursor.skipWhile_eq hrest hall hend
  have hslice : c.sliceTo (c.advance (b :: name).length) = b :: name := by
    rw [Cursor.sliceTo, hrest]
    simp [Cursor.advance]
  unfold name?
  conv_lhs => rw [hrest]
  rw [List.cons_append]
  dsimp only
  rw [if_pos hb, hskip, hslice]

/-- A name is read as a symbol. -/
theorem readsOperand_symbol {b : UInt8} {name : Bytes} (hb : isNameStart b = true)
    (hname : ∀ b ∈ name, isNameByte b = true) :
    ReadsOperand symbols (.symbol (b :: name)) (b :: name) := by
  intro c rest hrest hend
  have hquote : (b == singleQuote) = false := beq_eq_false_of_class hb (by decide)
  have hdigit : isDigit b = false := by
    rw [Bool.eq_false_iff]
    intro hdigit
    simp only [isDigit, isNameStart, Bool.or_eq_true, Bool.and_eq_true, decide_eq_true_eq,
      beq_iff_eq, UInt8.le_iff_toNat_le, ← UInt8.toNat_inj, UInt8.reduceToNat] at hdigit hb
    omega
  have hpeek : c.peek? = some b := by
    rw [Cursor.peek?, hrest]
    rfl
  rw [readUnary_of_isNameByte hrest (by simp [isNameByte, hb]), readAtom_eq, hpeek]
  dsimp only
  rw [hquote, hdigit, if_neg Bool.false_ne_true, if_neg Bool.false_ne_true,
    name?_eq hrest hb hname hend, Tree.value]
  dsimp only
  cases symbols (b :: name) <;> rfl

/-- A sign before an operand is read as a unary operator. -/
theorem ReadsOperand.unary {op : UnaryOp} {sign : String} (hop : (op, sign) ∈ signs)
    (h : ReadsOperand symbols tree text) :
    ReadsOperand symbols (.unary op tree) (.ofString sign ++ text) := by
  intro c rest hrest hend
  obtain ⟨b, hsign, hb, hblank⟩ := of_mem_signs hop
  rw [hsign] at hrest ⊢
  have hskip : c.skipBlanks = c := Cursor.skipBlanks_of_cons hrest hblank
  rw [readUnary_eq, hskip]
  conv_lhs => rw [hrest]
  rw [List.append_assoc, List.singleton_append]
  dsimp only
  rw [hb]
  dsimp only
  rw [List.append_assoc] at hrest
  rw [h (c.advance 1) rest (Cursor.rest_advance hrest) hend, Tree.value, bind_assoc, bind_assoc,
    ← Cursor.advance_append]
  rfl

/-- Blanks before an operand do not matter. -/
theorem readUnary_advance {c : Cursor} {b : UInt8} (hb : Cursor.isBlank b = true)
    (hrest : c.rest = [b] ++ rest) : readUnary symbols (c.advance 1) = readUnary symbols c := by
  have hskip : (c.advance 1).skipBlanks = c.skipBlanks :=
    Cursor.skipBlanks_advance hrest (by simpa using hb)
  rw [readUnary_eq, hskip, ← readUnary_eq]

/-- An operand may have a blank before it. -/
theorem ReadsOperand.blank {b : UInt8} (hb : Cursor.isBlank b = true)
    (h : ReadsOperand symbols tree text) : ReadsOperand symbols tree ([b] ++ text) := by
  intro c rest hrest hend
  rw [List.append_assoc] at hrest
  rw [← readUnary_advance hb hrest, h (c.advance 1) rest (Cursor.rest_advance hrest) hend,
    ← Cursor.advance_append]
  rfl

/-- A text may have a blank before it. -/
theorem LeadsOn.blank {b : UInt8} (hb : Cursor.isBlank b = true)
    (h : LeadsOn symbols level tree text) : LeadsOn symbols level tree ([b] ++ text) := by
  intro c start least rest hrest hleast hfollows
  rw [List.append_assoc] at hrest
  rw [← readUnary_advance hb hrest,
    h (c.advance 1) start least rest (Cursor.rest_advance hrest) hleast hfollows,
    ← Cursor.advance_append]
  rfl

/-- What stands between parentheses is read as an operand. -/
theorem LeadsOn.parentheses {gap : Bytes} (h : LeadsOn symbols 0 tree text) (hgap : IsGap gap) :
    ReadsOperand symbols tree (.ofString "(" ++ text ++ gap ++ .ofString ")") := by
  intro c rest hrest _
  have hopen : Bytes.ofString "(" = [0x28] := by decide
  have hclose : Bytes.ofString ")" = [0x29] := by decide
  rw [hopen, hclose] at hrest ⊢
  simp only [List.append_assoc] at hrest
  have hskip : c.skipBlanks = c := Cursor.skipBlanks_of_cons hrest rfl
  -- The operand inside ends at `d`, where only blanks stand before the closing parenthesis.
  have hinside : (c.advance 1).rest = text ++ (gap ++ ([0x29] ++ rest)) := Cursor.rest_advance hrest
  have hafter := Cursor.rest_advance hinside
  have hfollows : Follows 0 (gap ++ ([0x29] ++ rest)) := by
    refine Follows.gap (follows_of_head fun b hb => Or.inl ?_) hgap
    exact (Option.some.inj hb).symm
  have hread := h (c.advance 1) (c.advance 1) 0 _ hinside (Nat.le_refl 0) hfollows
  have hend : c.advance ([0x28] ++ text ++ gap ++ [0x29]).length
      = (((c.advance 1).advance text.length).advance gap.length).advance 1 := by
    simp only [Cursor.advance_advance, List.length_append, List.length_cons, List.length_nil,
      Nat.zero_add]
  rw [hend]
  generalize hd : (c.advance 1).advance text.length = d at hafter hread ⊢
  have hgapped : d.skipBlanks = d.advance gap.length := by
    refine Cursor.skipBlanks_eq hafter hgap fun x hx => ?_
    obtain rfl := Option.some.inj hx
    rfl
  have hstop (v : Value) :
      readOperators symbols 0 (c.advance 1) v d = .ok (v, d.advance gap.length) := by
    rw [readOperators_of_le, hgapped]
    rw [hafter, List.dropWhile_append_of_pos hgap]
    intro op hop
    cases hop
  have heat : (d.advance gap.length).skipBlanks.eat? 0x29
      = some ((d.advance gap.length).advance 1) := by
    rw [← hgapped, Cursor.skipBlanks_skipBlanks, hgapped, Cursor.eat?, Cursor.peek?,
      Cursor.rest_advance hafter]
    rfl
  rw [readUnary_eq, hskip]
  conv_lhs => rw [hrest]
  rw [List.singleton_append]
  dsimp only
  rw [readBinary_eq, hread, bind_assoc]
  simp only [hstop, ok_bind, heat]
  rfl

/-- **A binary operator** is read with the left operand before it and the right one behind it. -/
theorem LeadsOn.binary {line : Nat} {op : BinaryOp} {sign : String} {left right : Tree}
    {l gap r : Bytes} (hlevel : level ≤ line) (hop : (op, sign) ∈ precedence.getD line [])
    (hleft : LeadsOn symbols line left l) (hgap : IsGap gap)
    (hhead : ∃ b tail, r = b :: tail ∧ beginsOperand b = true)
    (hright : LeadsOn symbols (line + 1) right r) :
    LeadsOn symbols level (.binary op left right) (l ++ gap ++ .ofString sign ++ r) := by
  intro c start least rest hrest hleast hfollows
  obtain ⟨-, hstrength, hspelling⟩ := of_mem_precedence hop
  obtain ⟨b, tail, hr, hb⟩ := hhead
  rw [← hspelling] at hrest ⊢
  simp only [List.append_assoc] at hrest
  have hsign : Follows line (op.spelling ++ (r ++ rest)) := by
    rw [hr, List.cons_append]
    exact follows_operator (Nat.le_of_eq hstrength) hb _
  have htotal : c.advance (l ++ gap ++ op.spelling ++ r).length
      = (((c.advance l.length).advance gap.length).advance op.spelling.length).advance
        r.length := by
    simp only [Cursor.advance_append]
  have hoperator := Cursor.rest_advance hrest
  have hoperand := Cursor.rest_advance (Cursor.rest_advance hoperator)
  rw [hleft c start least _ hrest (hleast.trans hlevel) (hsign.gap hgap), Tree.value, bind_assoc,
    htotal]
  congr 1
  funext v
  rw [hr, List.cons_append] at hoperator
  rw [readOperators_spelling hoperator hgap hb (by omega), readBinary_eq, hstrength,
    hright _ _ (line + 1) rest hoperand (Nat.le_refl _) (hfollows.mono (by omega)), bind_assoc,
    bind_assoc]
  -- What follows does not bind more tightly than `op`, so the right operand ends there.
  congr 1
  funext w
  rw [readOperators_of_le, ok_bind]
  · simp only [readOperators_skipBlanks]
  · rw [Cursor.rest_advance hoperand]
    intro op' hop'
    exact (hfollows.operator op' hop').trans (by omega)

/-! ## Every text -/

/-- **A text of a tree is read as the tree**, whatever may follow it. -/
theorem Written.reads (symbols : Resolver) (h : Written level tree text) :
    (precedence.length ≤ level → ReadsOperand symbols tree text) ∧
      LeadsOn symbols level tree text := by
  have both {level : Nat} {tree : Tree} {text : Bytes} (hreads : ReadsOperand symbols tree text) :
      (precedence.length ≤ level → ReadsOperand symbols tree text) ∧
        LeadsOn symbols level tree text :=
    ⟨fun _ => hreads, hreads.leadsOn level⟩
  induction h with
  | literal h => exact both (readsOperand_literal h)
  | symbol hb hname => exact both (readsOperand_symbol hb hname)
  | unary hop _ ih => exact both ((ih.1 (Nat.le_refl _)).unary hop)
  | binary hlevel hop _ hgap hright ihleft ihright =>
    refine ⟨fun hge => ?_, LeadsOn.binary hlevel hop ihleft.2 hgap hright.exists_head ihright.2⟩
    have hline := (of_mem_precedence hop).1
    omega
  | parentheses _ hgap ih => exact both (ih.2.parentheses hgap)
  | blank hb _ ih => exact ⟨fun hge => (ih.1 hge).blank hb, ih.2.blank hb⟩

/-- An expression is read up to the end of the statement or a comma. -/
theorem Written.readBinary_eq (symbols : Resolver) (h : Written 0 tree text) {gap : Bytes}
    (hgap : IsGap gap) (hrest : ∀ b, rest.head? = some b → b = commaByte) {c : Cursor}
    (hc : c.rest = text ++ (gap ++ rest)) :
    readBinary symbols 0 c.skipBlanks
      = tree.value symbols >>= fun v => .ok (v, c.advance (text ++ gap).length) := by
  have hend : Follows 0 rest := follows_of_head fun b hb => Or.inr (hrest b hb)
  have hafter := Cursor.rest_advance hc
  have hunary : readUnary symbols c.skipBlanks = readUnary symbols c := by
    rw [readUnary_eq, Cursor.skipBlanks_skipBlanks, ← readUnary_eq]
  have hgapped : (c.advance text.length).skipBlanks = c.advance (text ++ gap).length := by
    rw [← Cursor.advance_append]
    refine Cursor.skipBlanks_eq hafter hgap fun b hb => ?_
    rw [hrest b hb]
    rfl
  have hnone : BinaryOp.atStart? (rest.dropWhile Cursor.isBlank) = none := by
    cases rest with
    | nil => rfl
    | cons b rest =>
      rw [hrest b rfl]
      rfl
  rw [Statement.readBinary_eq, hunary,
    (h.reads symbols).2 c c.skipBlanks 0 _ hc (Nat.le_refl 0) (hend.gap hgap)]
  congr 1
  funext v
  rw [readOperators_of_le, hgapped]
  rw [hafter, List.dropWhile_append_of_pos hgap, hnone]
  intro op hop
  cases hop

/-- **The parser implements the grammar.** Take any text of a tree, any blanks after it, and the end
of the statement or a comma after these. The parser takes the text and the blanks and nothing else.
It gives what the tree stands for, with numbers cut to 64 bits; and it refuses the text exactly when
evaluation from the operands upwards meets an undefined symbol, a zero divisor or a relative operand
that the operator does not take, with the code of what was met first. -/
theorem expression_written (symbols : Resolver) {tree : Tree} {text gap tail : Bytes}
    (h : Written 0 tree text) (hgap : IsGap gap)
    (htail : tail = [] ∨ ∃ more, tail = .ofString "," ++ more) {c : Cursor}
    (hc : c.rest = text ++ gap ++ tail) :
    let d : Cursor := ⟨c.file, c.off + text.length + gap.length, tail⟩
    (∀ q, tree.quantity symbols = .ok q →
      ∃ v, v.quantity = q ∧ expression symbols c = .ok ((v, c.skipBlanks.spanTo d), d)) ∧
    (∀ o, tree.quantity symbols = .error o →
      ∃ s, expression symbols c = .error s ∧ s.findings.map (·.fault.code) = [o.code]) ∧
    ((∃ s, expression symbols c = .error s) ↔ ∃ o, tree.quantity symbols = .error o) := by
  intro d
  have hcomma : ∀ b, tail.head? = some b → b = commaByte := by
    rintro b hb
    rcases htail with rfl | ⟨more, rfl⟩
    · cases hb
    · exact (Option.some.inj hb).symm
  have hd : c.advance (text ++ gap).length = d := by
    rw [Cursor.advance, hc, List.drop_left, List.length_append, ← Nat.add_assoc]
  have hread := h.readBinary_eq symbols hgap hcomma (hc.trans (List.append_assoc ..))
  rw [hd] at hread
  have hshows := tree.shows_value symbols
  have hvalue (q) (hq : tree.quantity symbols = .ok q) :
      ∃ v, v.quantity = q ∧ expression symbols c = .ok ((v, c.skipBlanks.spanTo d), d) := by
    rw [hq] at hshows
    obtain ⟨v, hv, hvq⟩ := hshows.exists_value
    rw [hv, ok_bind] at hread
    exact ⟨v, hvq, expression_eq_ok_iff.mpr ⟨hread, rfl⟩⟩
  have hfault (o) (ho : tree.quantity symbols = .error o) :
      ∃ s, expression symbols c = .error s ∧ s.findings.map (·.fault.code) = [o.code] := by
    rw [ho] at hshows
    obtain ⟨fault, hf, hcode⟩ := hshows.exists_fault
    rw [hf] at hread
    obtain ⟨s, hs, hfaults⟩ := exists_expression_eq_error hread
    refine ⟨s, hs, ?_⟩
    have hcodes := congrArg (List.map Fault.code) hfaults
    rw [List.map_map] at hcodes
    rw [← hcode]
    exact hcodes
  refine ⟨hvalue, hfault, ?_, ?_⟩
  · rintro ⟨s, hs⟩
    cases hq : tree.quantity symbols with
    | error o => exact ⟨o, rfl⟩
    | ok q =>
      obtain ⟨v, -, hv⟩ := hvalue q hq
      rw [hv] at hs
      cases hs
  · rintro ⟨o, ho⟩
    obtain ⟨s, hs, -⟩ := hfault o ho
    exact ⟨s, hs⟩

/-- A comparison of a distance with a negative number, and a product. -/
def distanceCheck : Tree :=
  .binary .andAlso
    (.binary .greater (.binary .subtract (.symbol (.ofString "a")) (.symbol (.ofString "b")))
      (.unary .minus (.literal 31)))
    (.binary .multiply (.binary .add (.literal 2) (.literal 8)) (.unary .negate (.literal 0)))

/-- The tree is written with blanks, a hexadecimal and an octal number. -/
theorem written_distanceCheck :
    Written 0 distanceCheck (.ofString " a-b>-0x1F&&(2 + 010)*! 0") := by
  have hnone : IsGap [] := by decide
  have hspace : IsGap [0x20] := by decide
  have hdistance : Written 6 (.binary .subtract (.symbol [0x61]) (.symbol [0x62])) _ :=
    .binary (by decide) (show (.subtract, "-") ∈ precedence.getD 8 [] by decide)
      (.symbol (by decide) (List.forall_mem_nil _)) hnone
      (.symbol (by decide) (List.forall_mem_nil _))
  have hbound : Spells 16 [0x31, 0x46] 31 :=
    ⟨[1, 15], .cons (.inl rfl) (.cons (.inr rfl) .nil), by decide, rfl⟩
  have hcomparison : Written 1 (.binary .greater _ (.unary .minus (.literal 31))) _ :=
    .binary (by decide) (show (.greater, ">") ∈ precedence.getD 6 [] by decide) hdistance hnone
      (.unary (show (.minus, "-") ∈ signs by decide)
        (.literal (.hexadecimal (x := 0x78) (.inl rfl) hbound)))
  have htwo : Spells 10 [0x32] 2 := ⟨[2], .cons (.inl rfl) .nil, by decide, rfl⟩
  have height : Spells 8 [0x31, 0x30] 8 :=
    ⟨[1, 0], .cons (.inl rfl) (.cons (.inl rfl) .nil), by decide, rfl⟩
  have hsum : Written 0 (.binary .add (.literal 2) (.literal 8)) _ :=
    .binary (by decide) (show (.add, "+") ∈ precedence.getD 8 [] by decide)
      (.literal (.decimal (by decide) htwo)) hspace
      (.blank (b := 0x20) rfl (.literal (.octal height)))
  have hzero : Spells 8 [] 0 := ⟨[], .nil, by decide, rfl⟩
  have hproduct : Written 2 (.binary .multiply _ (.unary .negate (.literal 0))) _ :=
    .binary (by decide) (show (.multiply, "*") ∈ precedence.getD 9 [] by decide)
      (.parentheses hsum hnone) hnone
      (.unary (show (.negate, "!") ∈ signs by decide)
        (.blank (b := 0x20) rfl (.literal (.octal hzero))))
  have hcheck : Written 0 distanceCheck _ :=
    .blank (b := 0x20) rfl
      (.binary (by decide) (show (.andAlso, "&&") ∈ precedence.getD 1 [] by decide) hcomparison
        hnone hproduct)
  exact hcheck

/-- Two symbols of one section. -/
def neighbours : Resolver := fun name =>
  if name = .ofString "a" then some { bits := 40, home := 3, relative := true }
  else if name = .ofString "b" then some { bits := 8, home := 3, relative := true }
  else none

/-- The text of `distanceCheck` before another argument, with symbols and without. -/
theorem expression_written_distanceCheck :
    let text := Bytes.ofString " a-b>-0x1F&&(2 + 010)*! 0"
    let c : Cursor := ⟨0, 5, text ++ .ofString " " ++ .ofString ",c"⟩
    let d : Cursor := ⟨0, 31, .ofString ",c"⟩
    Written 0 distanceCheck text ∧
      (∃ v, v.quantity = .absolute 1 ∧ expression neighbours c = .ok ((v, ⟨0, 6, 31⟩), d)) ∧
      ∃ s, expression (fun _ => none) c = .error s ∧
        s.findings.map (·.fault.code) = [Obstacle.undefinedSymbol.code] := by
  intro text c d
  have hspace : IsGap (.ofString " ") := by decide
  have htail : Bytes.ofString ",c" = [] ∨ ∃ more, Bytes.ofString ",c" = .ofString "," ++ more :=
    Or.inr ⟨.ofString "c", by decide⟩
  refine ⟨written_distanceCheck, ?_, ?_⟩
  · exact (expression_written neighbours written_distanceCheck hspace htail (c := c) rfl).1
      (.absolute 1) (by decide +kernel)
  · exact (expression_written (fun _ => none) written_distanceCheck hspace htail (c := c) rfl).2.1
      .undefinedSymbol rfl

end CatalystAsm.Statement
