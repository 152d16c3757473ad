import CatalystAsm.Statement.Argument
import CatalystAsm.Proofs.Except
import Mathlib.Tactic.Ring

/-!
# Readings

What the parser of expressions gives, without the places that only diagnostics need: a value and
the cursor after it, or the fault. Readings satisfy the equations of the grammar
(`readBinary_eq`, `readOperators_eq`, `readUnary_eq`, `readAtom_eq`), free of the bounds that the
parser carries for its termination.
-/

namespace CatalystAsm

/-! ## Cursors -/

/-- A run of bytes that ends where what follows does not go on with it. -/
theorem takeWhile_append {p : UInt8 → Bool} {text rest : Bytes} (htext : ∀ b ∈ text, p b = true)
    (hrest : ∀ b, rest.head? = some b → p b = false) : (text ++ rest).takeWhile p = text := by
  have hend : rest.takeWhile p = [] := by
    cases rest with
    | nil => rfl
    | cons b rest => rw [List.takeWhile_cons_of_neg (by simp [hrest b rfl])]
  rw [List.takeWhile_append_of_pos htext, hend, List.append_nil]

/-- A byte of a class is none of the bytes outside it. -/
theorem beq_eq_false_of_class {p : UInt8 → Bool} {b x : UInt8} (hb : p b = true)
    (hx : p x = false) : (b == x) = false := by
  rw [beq_eq_false_iff_ne]
  rintro rfl
  exact Bool.false_ne_true (hx.symm.trans hb)

namespace Cursor

variable {c : Cursor} {text gap rest : Bytes}

theorem advance_advance (c : Cursor) (m n : Nat) : (c.advance m).advance n = c.advance (m + n) := by
  simp only [advance, List.drop_drop, Nat.add_assoc]

/-- Moving past the text that is next leaves what follows it. -/
theorem rest_advance (h : c.rest = text ++ rest) : (c.advance text.length).rest = rest := by
  simp [advance, h]

/-- Moving past a text and then past the text that follows it. -/
theorem advance_append (c : Cursor) (text more : Bytes) :
    (c.advance text.length).advance more.length = c.advance (text ++ more).length := by
  rw [advance_advance, List.length_append]

/-- Moving past a run that ends where its bytes end. -/
theorem skipWhile_eq {p : UInt8 → Bool} (h : c.rest = text ++ rest) (htext : ∀ b ∈ text, p b = true)
    (hrest : ∀ b, rest.head? = some b → p b = false) : c.skipWhile p = c.advance text.length := by
  rw [skipWhile, h, takeWhile_append htext hrest]

theorem skipBlanks_eq (h : c.rest = gap ++ rest) (hgap : ∀ b ∈ gap, isBlank b = true)
    (hrest : ∀ b, rest.head? = some b → isBlank b = false) :
    c.skipBlanks = c.advance gap.length :=
  skipWhile_eq h hgap hrest

theorem rest_skipBlanks (c : Cursor) : c.skipBlanks.rest = c.rest.dropWhile isBlank :=
  rest_advance (List.takeWhile_append_dropWhile).symm

/-- No blank follows the blanks. -/
theorem isBlank_of_skipBlanks {b : UInt8} (h : c.skipBlanks.rest.head? = some b) :
    isBlank b = false := by
  have hhead := List.head?_dropWhile_not isBlank c.rest
  rw [← rest_skipBlanks, h] at hhead
  simpa using hhead

/-- Where no blank is next, there is nothing to skip. -/
theorem skipBlanks_of_head (h : ∀ b, c.rest.head? = some b → isBlank b = false) :
    c.skipBlanks = c :=
  skipBlanks_eq (List.nil_append c.rest).symm (fun _ hb => absurd hb List.not_mem_nil) h

/-- Where there is no blank, nothing is skipped. -/
theorem skipBlanks_of_cons {b : UInt8} (h : c.rest = b :: rest) (hb : isBlank b = false) :
    c.skipBlanks = c := by
  refine skipBlanks_of_head fun x hx => ?_
  rw [h] at hx
  obtain rfl := Option.some.inj hx
  exact hb

/-- Blanks that were passed already make no difference. -/
theorem skipBlanks_advance (h : c.rest = gap ++ rest) (hgap : ∀ b ∈ gap, isBlank b = true) :
    (c.advance gap.length).skipBlanks = c.skipBlanks := by
  rw [skipBlanks, skipBlanks, skipWhile, skipWhile, rest_advance h, h,
    List.takeWhile_append_of_pos hgap, advance_append]

theorem skipBlanks_skipBlanks (c : Cursor) : c.skipBlanks.skipBlanks = c.skipBlanks :=
  skipBlanks_of_head fun _ => isBlank_of_skipBlanks

end Cursor

namespace Statement

/-! ## Readings -/

/-- A stop is about the faults that it was made for. -/
theorem map_fault_about (faults : List Fault) (span : Span) (c : Cursor) :
    (Stop.about faults span c).findings.map (·.fault) = faults := by
  rw [Stop.about, List.map_map]
  exact List.map_id faults

/-- What the parser gave, without the places that it reports: the value and the cursor after it, or
the faults. -/
def reading {p : Cursor → Prop} (x : Except Stop (Value × { d : Cursor // p d })) :
    Except (List Fault) (Value × Cursor) :=
  match x with
  | .error s => .error (s.findings.map (·.fault))
  | .ok (v, d) => .ok (v, d.1)

/-- What the parser guarantees of the cursor after a value. -/
theorem of_reading {p : Cursor → Prop} {x : Except Stop (Value × { d : Cursor // p d })} {v : Value}
    {d : Cursor} (h : reading x = .ok (v, d)) : p d := by
  cases x with
  | error s => cases h
  | ok r =>
    cases h
    exact r.2.2

/-- The reading of an operand and the operators that bind more tightly than `least`. -/
def readBinary (symbols : Resolver) (least : Nat) (c : Cursor) :
    Except (List Fault) (Value × Cursor) :=
  reading (binary symbols least c)

/-- The reading of the operators after a left operand. -/
def readOperators (symbols : Resolver) (least : Nat) (start : Cursor) (left : Value) (c : Cursor) :
    Except (List Fault) (Value × Cursor) :=
  reading (operators symbols least start left c)

/-- The reading of an operand with its unary operators. -/
def readUnary (symbols : Resolver) (c : Cursor) : Except (List Fault) (Value × Cursor) :=
  reading (unary symbols c)

/-- The reading of a number or a symbol. -/
def readAtom (symbols : Resolver) (c : Cursor) : Except (List Fault) (Value × Cursor) :=
  reading (atom symbols c)

/-- Reading operands and operators is reading an operand and then the operators behind it. -/
theorem readBinary_eq (symbols : Resolver) (least : Nat) (c : Cursor) :
    readBinary symbols least c
      = readUnary symbols c >>= fun r => readOperators symbols least c r.1 r.2 := by
  rw [readBinary, readUnary, binary]
  cases unary symbols c with
  | error s => rfl
  | ok r =>
    obtain ⟨v, d, hd⟩ := r
    rw [reading.eq_def (.ok (v, ⟨d, hd⟩)), ok_bind, readOperators]
    dsimp only
    cases operators symbols least c v d <;> rfl

/-- Reading operators: the next one with its right operand, as long as it binds tightly enough. -/
theorem readOperators_eq (symbols : Resolver) (least : Nat) (start : Cursor) (left : Value)
    (c : Cursor) :
    readOperators symbols least start left c =
      match BinaryOp.atStart? c.skipBlanks.rest with
      | none => .ok (left, c.skipBlanks)
      | some op =>
        if op.strength ≤ least then .ok (left, c.skipBlanks)
        else
          readBinary symbols op.strength (c.skipBlanks.advance op.spelling.length) >>= fun r =>
            left.apply op r.1 >>= fun v => readOperators symbols least start v r.2 := by
  rw [readOperators, operators]
  dsimp only
  split
  · rename_i hop
    rw [hop]
    rfl
  · rename_i op hop
    rw [hop]
    dsimp only
    split_ifs
    · rfl
    · rw [readBinary]
      cases binary symbols op.strength (c.skipBlanks.advance op.spelling.length) with
      | error s => rfl
      | ok r =>
        obtain ⟨right, e, he⟩ := r
        rw [reading.eq_def (.ok (right, ⟨e, he⟩)), ok_bind]
        dsimp only
        cases left.apply op right with
        | error faults => exact congrArg Except.error (map_fault_about faults _ _)
        | ok v =>
          rw [ok_bind, readOperators]
          dsimp only
          cases operators symbols least start v e <;> rfl

/-- Reading an operand: a unary operator before another operand, parentheses, or an atom. -/
theorem readUnary_eq (symbols : Resolver) (c : Cursor) :
    readUnary symbols c =
      match c.skipBlanks.rest with
      | [] => .error [.expectedExpression]
      | b :: _ =>
        match UnaryOp.ofByte? b with
        | some op =>
          readUnary symbols (c.skipBlanks.advance 1) >>= fun r =>
            r.1.applyUnary op >>= fun w => .ok (w, r.2)
        | none =>
          if b == 0x28 then
            readBinary symbols 0 (c.skipBlanks.advance 1) >>= fun r =>
              match r.2.skipBlanks.eat? 0x29 with
              | none => .error [.missingParenthesis]
              | some d => .ok (r.1, d)
          else readAtom symbols c.skipBlanks := by
  rw [readUnary, unary]
  dsimp only
  split
  · rename_i hrest
    rw [hrest]
    rfl
  · rename_i b rest hrest
    conv_rhs => rw [hrest]
    dsimp only
    cases UnaryOp.ofByte? b with
    | some op =>
      dsimp only
      rw [readUnary]
      cases unary symbols (c.skipBlanks.advance 1) with
      | error s => rfl
      | ok r =>
        obtain ⟨v, e, he⟩ := r
        rw [reading.eq_def (.ok (v, ⟨e, he⟩)), ok_bind]
        dsimp only
        cases v.applyUnary op with
        | error faults => exact congrArg Except.error (map_fault_about faults _ _)
        | ok w => rfl
    | none =>
      dsimp only
      split_ifs
      · rw [readBinary]
        cases binary symbols 0 (c.skipBlanks.advance 1) with
        | error s => rfl
        | ok r =>
          obtain ⟨v, e, he⟩ := r
          rw [reading.eq_def (.ok (v, ⟨e, he⟩)), ok_bind]
          dsimp only
          split
          · rename_i hclose
            rw [hclose]
            rfl
          · rename_i f hclose
            conv_rhs => rw [hclose]
            rfl
      · rw [readAtom]
        cases atom symbols c.skipBlanks <;> rfl

/-- The reading of a literal that stands for a number. -/
def readNumber (x : Scanned UInt64) : Except (List Fault) (Value × Cursor) :=
  match x with
  | .error s => .error (s.findings.map (·.fault))
  | .ok (v, d) => .ok ({ bits := v }, d)

/-- Reading an atom: a number or a symbol. -/
theorem readAtom_eq (symbols : Resolver) (c : Cursor) :
    readAtom symbols c =
      match c.peek? with
      | none => .error [.expectedExpression]
      | some b =>
        if b == singleQuote then readNumber (character c)
        else if isDigit b then readNumber (integer c)
        else
          match name? c with
          | none => .error [.expectedExpression]
          | some (n, d) =>
            match symbols n with
            | some v => .ok (v, d)
            | none => .error [.undefinedSymbol n] := by
  rw [readAtom, atom]
  split
  · rename_i hpeek
    rw [hpeek]
    rfl
  · rename_i b hpeek
    conv_rhs => rw [hpeek]
    dsimp only
    split_ifs
    · split
      · rename_i hnumber
        rw [hnumber]
        rfl
      · rename_i hnumber
        conv_rhs => rw [hnumber]
        rfl
    · split
      · rename_i hnumber
        rw [hnumber]
        rfl
      · rename_i hnumber
        conv_rhs => rw [hnumber]
        rfl
    · split
      · rename_i hname
        rw [hname]
        rfl
      · rename_i n d hname
        conv_rhs => rw [hname]
        dsimp only
        cases symbols n <;> rfl

/-! ## Whole expressions -/

/-- An expression is read when an operand with all operators is, after blanks. -/
theorem expression_eq_ok_iff {symbols : Resolver} {c d : Cursor} {v : Value} {span : Span} :
    expression symbols c = .ok ((v, span), d) ↔
      readBinary symbols 0 c.skipBlanks = .ok (v, d) ∧ span = c.skipBlanks.spanTo d := by
  unfold expression readBinary
  dsimp only
  cases binary symbols 0 c.skipBlanks with
  | error s => simp [reading]
  | ok r =>
    obtain ⟨w, e, he⟩ := r
    simp only [reading, Except.ok.injEq, Prod.mk.injEq]
    constructor
    · rintro ⟨⟨rfl, rfl⟩, rfl⟩
      exact ⟨⟨rfl, rfl⟩, rfl⟩
    · rintro ⟨⟨rfl, rfl⟩, rfl⟩
      exact ⟨⟨rfl, rfl⟩, rfl⟩

/-- An expression is refused with the faults of its reading. -/
theorem exists_expression_eq_error {symbols : Resolver} {c : Cursor} {faults : List Fault}
    (h : readBinary symbols 0 c.skipBlanks = .error faults) :
    ∃ s, expression symbols c = .error s ∧ s.findings.map (·.fault) = faults := by
  unfold readBinary at h
  unfold expression
  dsimp only
  cases hbinary : binary symbols 0 c.skipBlanks with
  | error s =>
    rw [hbinary] at h
    exact ⟨s, rfl, Except.error.inj h⟩
  | ok r =>
    rw [hbinary] at h
    cases h

end Statement

end CatalystAsm
