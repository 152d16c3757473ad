import CatalystAsm.Statement.Expression

/-!
# What values of expressions keep

Operators compute with the bits of values. Beside these, the value that they give is that of a plain
number or that of an operand (`Value.Closed.apply`, `Value.Closed.applyUnary`). So what is true of
numbers and does not depend on bits (`Value.Closed`) holds of an expression when it holds of the
symbols in it (`Statement.of_expression`). One such property is to stay in given sections: a value
that is relative to a section is relative to the section of one of the symbols that it was computed
from. Another is that an absolute value names no section.
-/

namespace CatalystAsm

namespace Value

/-- A property that absolute numbers have and that does not depend on bits. -/
structure Closed (P : Value → Prop) : Prop where
  absolute (bits : UInt64) : P { bits }
  withBits {v : Value} (bits : UInt64) : P v → P { v with bits }

section Operators

variable {P : Value → Prop} {a b v : Value}

/-- What is computed from numbers alone is a number, and so has the property. -/
theorem Closed.applyAbsolute (hP : Closed P) {op : BinaryOp}
    (h : Value.applyAbsolute op a b = .ok v) : P v := by
  unfold Value.applyAbsolute at h
  split at h
  · cases h
  · split at h
    · cases h
    · cases h
      exact hP.absolute _

/-- Binary operators keep the property. -/
theorem Closed.apply (hP : Closed P) {op : BinaryOp} (ha : P a) (hb : P b)
    (h : a.apply op b = .ok v) : P v := by
  unfold Value.apply at h
  split at h
  · split at h
    · cases h
    · split at h
      · cases h
        exact hP.withBits _ hb
      · cases h
        exact hP.withBits _ ha
  · split at h
    · cases h
      exact hP.absolute _
    · split at h
      · cases h
        exact hP.withBits _ ha
      · cases h
  · exact hP.applyAbsolute h

/-- Unary operators keep the property. -/
theorem Closed.applyUnary (hP : Closed P) {op : UnaryOp} (ha : P a)
    (h : a.applyUnary op = .ok v) : P v := by
  unfold Value.applyUnary at h
  split at h
  · cases h
    exact ha
  · split at h
    · cases h
    · split at h <;> cases h <;> exact hP.withBits _ ha

end Operators

/-- A value that is absolute, or relative to a section that satisfies `P`. -/
def HomeIn (P : UInt32 → Prop) (v : Value) : Prop := v.relative = true → P v.home

theorem homeIn_absolute {P : UInt32 → Prop} (bits : UInt64) : HomeIn P { bits } :=
  fun h => by cases h

/-- The section of a value is that of an operand. -/
theorem closed_homeIn (P : UInt32 → Prop) : Closed (HomeIn P) := ⟨homeIn_absolute, fun _ h => h⟩

/-- An absolute value names no section. -/
def Plain (v : Value) : Prop := v.relative = false → v.home = 0

/-- No operator gives an absolute value a section. -/
theorem closed_plain : Closed Plain := ⟨fun _ _ => rfl, fun _ h => h⟩

end Value

namespace Statement

variable {P : Value → Prop} {symbols : Resolver}

/-- A number has the property, and a symbol if all symbols have it. -/
theorem of_atom (hP : Value.Closed P) (hsymbols : ∀ n v, symbols n = some v → P v) {c : Cursor}
    {v : Value} {d : { d : Cursor // d.rest.length < c.rest.length }}
    (h : atom symbols c = .ok (v, d)) : P v := by
  unfold atom at h
  split at h
  · cases h
  · split at h
    · split at h
      · cases h
      · cases h
        exact hP.absolute _
    · split at h
      · split at h
        · cases h
        · cases h
          exact hP.absolute _
      · split at h
        · cases h
        · split at h
          · rename_i hsymbol
            cases h
            exact hsymbols _ _ hsymbol
          · cases h

mutual

/-- Operands with operators between them have the property. -/
theorem of_binary (hP : Value.Closed P) (hsymbols : ∀ n v, symbols n = some v → P v) {least : Nat}
    {c : Cursor} {v : Value} {d : { d : Cursor // d.rest.length < c.rest.length }}
    (h : binary symbols least c = .ok (v, d)) : P v := by
  rw [binary] at h
  split at h
  · cases h
  · rename_i w d hd hunary
    split at h
    · cases h
    · rename_i hoperators
      cases h
      exact of_operators hP hsymbols (of_unary hP hsymbols hunary) hoperators
termination_by 4 * c.rest.length + 3

/-- Further operators keep the property of the left operand. -/
theorem of_operators (hP : Value.Closed P) (hsymbols : ∀ n v, symbols n = some v → P v)
    {least : Nat} {start : Cursor} {left v : Value} {c : Cursor}
    {d : { d : Cursor // d.rest.length ≤ c.rest.length }} (hleft : P left)
    (h : operators symbols least start left c = .ok (v, d)) : P v := by
  rw [operators] at h
  dsimp only at h
  split at h
  · cases h
    exact hleft
  · rename_i op hop
    split at h
    · cases h
      exact hleft
    · have hshorter := c.length_rest_skipBlanks
      have hpos := op.spelling_length_pos
      have hadvance := c.skipBlanks.length_rest_advance op.spelling.length
      have hprefix := List.find?_some hop
      have hlen : op.spelling.length ≤ c.skipBlanks.rest.length :=
        (List.isPrefixOf_iff_prefix.1 hprefix).length_le
      split at h
      · cases h
      · rename_i right e he hright
        split at h
        · cases h
        · rename_i w happly
          split at h
          · cases h
          · rename_i hrest
            cases h
            exact of_operators hP hsymbols
              (hP.apply hleft (of_binary hP hsymbols hright) happly) hrest
termination_by 4 * c.rest.length

/-- An operand with its unary operators has the property. -/
theorem of_unary (hP : Value.Closed P) (hsymbols : ∀ n v, symbols n = some v → P v) {c : Cursor}
    {v : Value} {d : { d : Cursor // d.rest.length < c.rest.length }}
    (h : unary symbols c = .ok (v, d)) : P v := by
  rw [unary] at h
  dsimp only at h
  split at h
  · cases h
  · rename_i b rest hrest
    have hshorter := c.length_rest_skipBlanks
    have hadvance := c.skipBlanks.length_rest_advance 1
    have hpos : 0 < c.skipBlanks.rest.length := by
      rw [hrest]
      exact Nat.succ_pos _
    split at h
    · split at h
      · cases h
      · rename_i hoperand
        split at h
        · cases h
        · rename_i happly
          cases h
          exact hP.applyUnary (of_unary hP hsymbols hoperand) happly
    · split at h
      · split at h
        · cases h
        · rename_i hinner
          split at h
          · cases h
          · cases h
            exact of_binary hP hsymbols hinner
      · split at h
        · cases h
        · rename_i hatom
          cases h
          exact of_atom hP hsymbols hatom
termination_by 4 * c.rest.length + 1

end

/-- **What operators keep holds of an expression** when it holds of the symbols in it. -/
theorem of_expression (hP : Value.Closed P) (hsymbols : ∀ n v, symbols n = some v → P v)
    {c d : Cursor} {v : Value × Span} (h : expression symbols c = .ok (v, d)) : P v.1 := by
  unfold expression at h
  dsimp only at h
  split at h
  · cases h
  · rename_i hbinary
    cases h
    exact of_binary hP hsymbols hbinary

end Statement

end CatalystAsm
