import CatalystAsm.Statement.Literal

/-!
# Expressions

An expression has a 64-bit value, which may be an offset inside a section. Arithmetic wraps around,
comparisons are signed, division is unsigned, and shift counts are taken modulo 64. Only a sum with
an absolute number and a difference may have a section-relative operand.
-/

namespace CatalystAsm

/-- The value of an expression. When `relative` holds, `bits` is an offset inside `section`. -/
structure Value where
  bits : UInt64
  home : UInt32 := 0
  relative : Bool := false
  deriving DecidableEq, Repr, Inhabited

/-- What symbols stand for in an expression. -/
abbrev Resolver := Bytes → Option Value

namespace Value

/-- The value 1 for true and 0 for false. -/
def ofBool (b : Bool) : UInt64 := if b then 1 else 0

/-- Whether `x` is less than `y` as signed numbers. -/
def signedLess (x y : UInt64) : Bool := x.toInt64 < y.toInt64

/-- The result of an operator on absolute operands; none for a division by zero. -/
def arithmetic (op : BinaryOp) (x y : UInt64) : Option UInt64 :=
  match op with
  | .add => some (x + y)
  | .subtract => some (x - y)
  | .multiply => some (x * y)
  | .divide => if y == 0 then none else some (x / y)
  | .remainder => if y == 0 then none else some (x % y)
  | .shiftLeft => some (x <<< (y &&& 63))
  | .shiftRight => some (x >>> (y &&& 63))
  | .bitAnd => some (x &&& y)
  | .bitOr => some (x ||| y)
  | .bitXor => some (x ^^^ y)
  | .andAlso => some (ofBool (x != 0 && y != 0))
  | .orElse => some (ofBool (x != 0 || y != 0))
  | .equal => some (ofBool (x == y))
  | .notEqual => some (ofBool (x != y))
  | .less => some (ofBool (signedLess x y))
  | .lessEqual => some (ofBool (!signedLess y x))
  | .greater => some (ofBool (signedLess y x))
  | .greaterEqual => some (ofBool (!signedLess x y))

/-- The operator on operands that are absolute, or else the faults. -/
def applyAbsolute (op : BinaryOp) (a b : Value) : Except (List Fault) Value :=
  if a.relative || b.relative then .error [.needsAbsoluteOperands op]
  else match arithmetic op a.bits b.bits with
    | none => .error [.divisionByZero]
    | some v => .ok { bits := v }

/-- The operator on any two operands. -/
def apply (op : BinaryOp) (a b : Value) : Except (List Fault) Value :=
  match op with
  | .add =>
    if a.relative && b.relative then .error [.needsAbsoluteOperands .add]
    else if b.relative then .ok { b with bits := b.bits + a.bits }
    else .ok { a with bits := a.bits + b.bits }
  | .subtract =>
    if a.relative && b.relative && a.home == b.home then .ok { bits := a.bits - b.bits }
    else if !b.relative then .ok { a with bits := a.bits - b.bits }
    else .error [.needsAbsoluteOperands .subtract]
  | _ => applyAbsolute op a b

/-- The unary operator on an operand. -/
def applyUnary (op : UnaryOp) (v : Value) : Except (List Fault) Value :=
  match op with
  | .plus => .ok v
  | _ =>
    if v.relative then .error [.needsAbsoluteOperand op]
    else match op with
      | .plus => .ok v
      | .minus => .ok { v with bits := -v.bits }
      | .complement => .ok { v with bits := ~~~v.bits }
      | .negate => .ok { v with bits := ofBool (v.bits == 0) }

end Value

namespace Statement

/-- A value with the cursor after it, which is past the cursor `c` where reading began. -/
abbrev ReadPast (c : Cursor) :=
  Except Stop (Value × { d : Cursor // d.rest.length < c.rest.length })

/-- The operand at the cursor that is neither a unary operator nor a parenthesis. -/
def atom (symbols : Resolver) (c : Cursor) : ReadPast c :=
  match hb : c.peek? with
  | none => .error (.about [.expectedExpression] c.here c)
  | some b =>
    if b == singleQuote then
      match hv : character c with
      | .error s => .error s
      | .ok (v, d) => .ok ({ bits := v }, ⟨d, length_rest_character hv⟩)
    else if hd : isDigit b then
      match hv : integer c with
      | .error s => .error s
      | .ok (v, d) => .ok ({ bits := v }, ⟨d, length_rest_integer hb hd hv⟩)
    else
      match hn : name? c with
      | none => .error (.about [.expectedExpression] c.here c)
      | some (n, d) =>
        match symbols n with
        | some v => .ok (v, ⟨d, length_rest_name? hn⟩)
        | none => .error (.about [.undefinedSymbol n] (c.spanTo d) d)

mutual

/-- An operand followed by all the operators that bind more tightly than `least`. -/
def binary (symbols : Resolver) (least : Nat) (c : Cursor) : ReadPast c :=
  match unary symbols c with
  | .error s => .error s
  | .ok (v, ⟨d, hd⟩) =>
    match operators symbols least c v d with
    | .error s => .error s
    | .ok (w, ⟨e, he⟩) => .ok (w, ⟨e, by omega⟩)
termination_by 4 * c.rest.length + 3

/-- The operators after a left operand `left` that began at `start`, each with its right operand,
as long as they bind more tightly than `least`. Ends after the blanks before what does not belong
to the expression. -/
def operators (symbols : Resolver) (least : Nat) (start : Cursor) (left : Value) (c : Cursor) :
    Except Stop (Value × { d : Cursor // d.rest.length ≤ c.rest.length }) :=
  let d := c.skipBlanks
  have hd : d.rest.length ≤ c.rest.length := c.length_rest_skipBlanks
  match ho : BinaryOp.atStart? d.rest with
  | none => .ok (left, ⟨d, hd⟩)
  | some op =>
    if op.strength ≤ least then .ok (left, ⟨d, hd⟩)
    else
      match binary symbols op.strength (d.advance op.spelling.length) with
      | .error s => .error s
      | .ok (right, ⟨e, he⟩) =>
        have hlt : e.rest.length < c.rest.length := by
          have := d.length_rest_advance op.spelling.length
          omega
        match left.apply op right with
        | .error faults => .error (.about faults (start.spanTo e) e)
        | .ok v =>
          match operators symbols least start v e with
          | .error s => .error s
          | .ok (w, ⟨f, hf⟩) => .ok (w, ⟨f, by omega⟩)
termination_by 4 * c.rest.length
decreasing_by
  · have hop := op.spelling_length_pos
    have hpre := List.find?_some ho
    have hlen : op.spelling.length ≤ c.skipBlanks.rest.length :=
      (List.isPrefixOf_iff_prefix.1 hpre).length_le
    have := c.skipBlanks.length_rest_advance op.spelling.length
    have := c.length_rest_skipBlanks
    omega
  · omega

/-- An operand with its unary operators, after blanks. -/
def unary (symbols : Resolver) (c : Cursor) : ReadPast c :=
  let d := c.skipBlanks
  have hd : d.rest.length ≤ c.rest.length := c.length_rest_skipBlanks
  match hr : d.rest with
  | [] => .error (.about [.expectedExpression] d.here d)
  | b :: _ =>
    have hlt : (d.advance 1).rest.length < c.rest.length := by
      have := d.length_rest_advance 1
      rw [hr] at this hd
      simp at this hd
      omega
    match UnaryOp.ofByte? b with
    | some op =>
      match unary symbols (d.advance 1) with
      | .error s => .error s
      | .ok (v, ⟨e, he⟩) =>
        match v.applyUnary op with
        | .error faults => .error (.about faults (d.spanTo e) e)
        | .ok w => .ok (w, ⟨e, by omega⟩)
    | none =>
      if b == 0x28 then
        match binary symbols 0 (d.advance 1) with
        | .error s => .error s
        | .ok (v, ⟨e, he⟩) =>
          match hc : e.skipBlanks.eat? 0x29 with
          | none => .error (.about [.missingParenthesis] (d.spanTo e.skipBlanks) e.skipBlanks)
          | some f => .ok (v, ⟨f, by
              have := Cursor.length_rest_eat? hc
              have := e.length_rest_skipBlanks
              omega⟩)
      else
        match atom symbols d with
        | .error s => .error s
        | .ok (v, ⟨e, he⟩) => .ok (v, ⟨e, by omega⟩)
termination_by 4 * c.rest.length + 1
decreasing_by
  · change (c.skipBlanks.advance 1).rest.length < c.rest.length at hlt
    omega
  · change (c.skipBlanks.advance 1).rest.length < c.rest.length at hlt
    omega

end

/-- The expression after blanks, and the span it takes. -/
def expression (symbols : Resolver) (c : Cursor) : Scanned (Value × Span) :=
  let start := c.skipBlanks
  match binary symbols 0 start with
  | .error s => .error s
  | .ok (v, ⟨d, _⟩) => .ok ((v, start.spanTo d), d)

/-- An expression that is not section-relative, and the span it takes. -/
def absolute (symbols : Resolver) (c : Cursor) : Scanned (UInt64 × Span) :=
  match expression symbols c with
  | .error s => .error s
  | .ok ((v, span), d) =>
    if v.relative then .error (.about [.notAbsolute] span d) else .ok ((v.bits, span), d)

end Statement

end CatalystAsm
