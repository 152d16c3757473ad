import CatalystAsm.Proofs.Statement.Grammar

/-!
# Moving sections

A text that is read as an expression is read as one tree, whatever its symbols stand for
(`exists_tree`). So two readings of it with different symbols can be compared operator by operator:
an expression that is read with symbols relative to sections is also read when the sections have
addresses, and its value is the address of what it was (`expression_placed`).
-/

namespace CatalystAsm

namespace Statement

/-! ## The tree of a text -/

theorem length_of_readBinary {symbols : Resolver} {least : Nat} {c d : Cursor} {v : Value}
    (h : readBinary symbols least c = .ok (v, d)) : d.rest.length < c.rest.length :=
  of_reading h

theorem length_of_readUnary {symbols : Resolver} {c d : Cursor} {v : Value}
    (h : readUnary symbols c = .ok (v, d)) : d.rest.length < c.rest.length :=
  of_reading h

/-- An operator takes bytes. -/
theorem length_after_operator {c : Cursor} {op : BinaryOp}
    (hop : BinaryOp.atStart? c.skipBlanks.rest = some op) :
    (c.skipBlanks.advance op.spelling.length).rest.length < c.rest.length := by
  have hfound := List.find?_some hop
  have hlen : op.spelling.length ≤ c.skipBlanks.rest.length :=
    (List.isPrefixOf_iff_prefix.1 hfound).length_le
  have hpos := op.spelling_length_pos
  have hadvance := c.skipBlanks.length_rest_advance op.spelling.length
  have hskip := c.length_rest_skipBlanks
  omega

/-- A number that is read is that of a tree. -/
theorem exists_tree_readNumber {x : Scanned UInt64} {d : Cursor} {v : Value}
    (h : readNumber x = .ok (v, d)) :
    ∃ tree : Tree, ∀ symbols, readNumber x = tree.value symbols >>= fun v => .ok (v, d) := by
  cases x with
  | error s => cases h
  | ok r =>
    cases h
    exact ⟨.literal r.1, fun symbols => rfl⟩

/-- An atom that is read is that of a tree, under all symbols. -/
theorem exists_tree_readAtom {symbols : Resolver} {c d : Cursor} {v : Value}
    (h : readAtom symbols c = .ok (v, d)) :
    ∃ tree : Tree, ∀ symbols, readAtom symbols c = tree.value symbols >>= fun v => .ok (v, d) := by
  simp only [readAtom_eq] at h ⊢
  cases hpeek : c.peek? with
  | none =>
    rw [hpeek] at h
    cases h
  | some b =>
    rw [hpeek] at h
    dsimp only at h ⊢
    split_ifs at h ⊢
    · exact exists_tree_readNumber h
    · exact exists_tree_readNumber h
    · cases hname : name? c with
      | none =>
        rw [hname] at h
        cases h
      | some r =>
        obtain ⟨n, e⟩ := r
        rw [hname] at h
        dsimp only at h ⊢
        split at h
        · cases h
          refine ⟨.symbol n, fun symbols => ?_⟩
          rw [Tree.value]
          cases symbols n <;> rfl
        · cases h

/-- The trees of an operand and of what follows make the tree of both. -/
theorem exists_tree_operator {least : Nat} {start c d e : Cursor} {op : BinaryOp}
    {tree right whole : Tree} (hop : BinaryOp.atStart? c.skipBlanks.rest = some op)
    (hlt : ¬op.strength ≤ least)
    (hright : ∀ symbols,
      readBinary symbols op.strength (c.skipBlanks.advance op.spelling.length)
        = right.value symbols >>= fun v => .ok (v, e))
    (hwhole : ∀ symbols,
      ((Tree.binary op tree right).value symbols >>= fun w =>
        readOperators symbols least start w e) = whole.value symbols >>= fun v => .ok (v, d))
    (symbols : Resolver) :
    (tree.value symbols >>= fun w => readOperators symbols least start w c)
      = whole.value symbols >>= fun v => .ok (v, d) := by
  rw [← hwhole, Tree.value, bind_assoc]
  congr 1
  funext w
  rw [readOperators_eq, hop]
  dsimp only
  rw [if_neg hlt, hright, bind_assoc, bind_assoc]
  rfl

mutual

/-- Operands with operators between them are read as a tree, under all symbols. -/
theorem exists_tree_readBinary {symbols : Resolver} {least : Nat} {c d : Cursor} {v : Value}
    (h : readBinary symbols least c = .ok (v, d)) :
    ∃ tree : Tree, ∀ symbols,
      readBinary symbols least c = tree.value symbols >>= fun v => .ok (v, d) := by
  rw [readBinary_eq] at h
  obtain ⟨⟨left, e⟩, hleft, hrest⟩ := bind_eq_ok_iff.mp h
  have hshorter := length_of_readUnary hleft
  obtain ⟨tree, htree⟩ := exists_tree_readUnary hleft
  obtain ⟨whole, hwhole⟩ := exists_tree_readOperators tree hrest
  refine ⟨whole, fun symbols => ?_⟩
  rw [readBinary_eq, htree, bind_assoc, ← hwhole]
  rfl
termination_by 4 * c.rest.length + 3

/-- Further operators make a larger tree, under all symbols. -/
theorem exists_tree_readOperators {symbols : Resolver} {least : Nat} {start c d : Cursor}
    {left v : Value} (tree : Tree) (h : readOperators symbols least start left c = .ok (v, d)) :
    ∃ whole : Tree, ∀ symbols,
      (tree.value symbols >>= fun w => readOperators symbols least start w c)
        = whole.value symbols >>= fun v => .ok (v, d) := by
  by_cases hstop : ∀ op, BinaryOp.atStart? (c.rest.dropWhile Cursor.isBlank) = some op →
      op.strength ≤ least
  · rw [readOperators_of_le hstop] at h
    cases h
    exact ⟨tree, fun symbols => by simp only [readOperators_of_le hstop]⟩
  · push Not at hstop
    obtain ⟨op, hop, hlt⟩ := hstop
    rw [← Cursor.rest_skipBlanks] at hop
    rw [readOperators_eq, hop] at h
    dsimp only at h
    rw [if_neg (Nat.not_le.mpr hlt)] at h
    obtain ⟨⟨right, e⟩, hright, hrest⟩ := bind_eq_ok_iff.mp h
    obtain ⟨w, -, hrest⟩ := bind_eq_ok_iff.mp hrest
    have hoperator := length_after_operator hop
    have hoperand := length_of_readBinary hright
    obtain ⟨tail, htail⟩ := exists_tree_readBinary hright
    obtain ⟨whole, hwhole⟩ := exists_tree_readOperators (.binary op tree tail) hrest
    exact ⟨whole, exists_tree_operator hop (Nat.not_le.mpr hlt) htail hwhole⟩
termination_by 4 * c.rest.length

/-- An operand that is read is that of a tree, under all symbols. -/
theorem exists_tree_readUnary {symbols : Resolver} {c d : Cursor} {v : Value}
    (h : readUnary symbols c = .ok (v, d)) :
    ∃ tree : Tree, ∀ symbols, readUnary symbols c = tree.value symbols >>= fun v => .ok (v, d) := by
  rw [readUnary_eq] at h
  cases hrest : c.skipBlanks.rest with
  | nil =>
    rw [hrest] at h
    cases h
  | cons b rest =>
    have hskip := c.length_rest_skipBlanks
    have hadvance := c.skipBlanks.length_rest_advance 1
    have hlength : c.skipBlanks.rest.length = rest.length + 1 := by rw [hrest]; rfl
    rw [hrest] at h
    dsimp only at h
    cases hsign : UnaryOp.ofByte? b with
    | some op =>
      rw [hsign] at h
      obtain ⟨⟨w, e⟩, hoperand, happly⟩ := bind_eq_ok_iff.mp h
      obtain ⟨u, -, hu⟩ := bind_eq_ok_iff.mp happly
      cases hu
      obtain ⟨tree, htree⟩ := exists_tree_readUnary hoperand
      refine ⟨.unary op tree, fun symbols => ?_⟩
      rw [readUnary_eq, hrest]
      dsimp only
      rw [hsign]
      dsimp only
      rw [htree, Tree.value, bind_assoc, bind_assoc]
      rfl
    | none =>
      rw [hsign] at h
      dsimp only at h
      by_cases hopen : (b == 0x28) = true
      · rw [if_pos hopen] at h
        obtain ⟨⟨w, e⟩, hinside, hclose⟩ := bind_eq_ok_iff.mp h
        obtain ⟨tree, htree⟩ := exists_tree_readBinary hinside
        refine ⟨tree, fun symbols => ?_⟩
        cases heat : e.skipBlanks.eat? 0x29 with
        | none =>
          rw [heat] at hclose
          cases hclose
        | some f =>
          rw [heat] at hclose
          cases hclose
          rw [readUnary_eq, hrest]
          dsimp only
          rw [hsign]
          dsimp only
          rw [if_pos hopen, htree, bind_assoc]
          simp only [ok_bind, heat]
      · rw [if_neg hopen] at h
        obtain ⟨tree, htree⟩ := exists_tree_readAtom h
        refine ⟨tree, fun symbols => ?_⟩
        rw [readUnary_eq, hrest]
        dsimp only
        rw [hsign]
        dsimp only
        rw [if_neg hopen, htree]
termination_by 4 * c.rest.length + 1

end

end Statement

/-! ## Addresses -/

namespace Value

variable {base : UInt32 → UInt64} {a b v a' b' w : Value}

/-- The number that a value is once the sections have addresses. -/
def address (base : UInt32 → UInt64) (v : Value) : UInt64 :=
  if v.relative then base v.home + v.bits else v.bits

/-- The value `w` is the number that `v` is once the sections have addresses. -/
def PlacedAs (base : UInt32 → UInt64) (v w : Value) : Prop :=
  w.relative = false ∧ w.bits = v.address base

/-- A number stays as it is when the sections get addresses. -/
theorem PlacedAs.bits_eq (h : PlacedAs base a a') (ha : a.relative = false) : a'.bits = a.bits := by
  rw [h.2, address, ha]
  rfl

/-- An operator that takes numbers only gives the same on placed operands. -/
theorem PlacedAs.applyAbsolute {op : BinaryOp} (ha : PlacedAs base a a') (hb : PlacedAs base b b')
    (h : Value.applyAbsolute op a b = .ok v) :
    Value.applyAbsolute op a' b' = .ok v ∧ PlacedAs base v v := by
  unfold Value.applyAbsolute at h ⊢
  split_ifs at h with hrelative
  rw [Bool.or_eq_true, not_or, Bool.not_eq_true, Bool.not_eq_true] at hrelative
  rw [ha.1, hb.1, ha.bits_eq hrelative.1, hb.bits_eq hrelative.2]
  refine ⟨h, ?_⟩
  cases hvalue : arithmetic op a.bits b.bits with
  | none =>
    rw [hvalue] at h
    cases h
  | some n =>
    rw [hvalue] at h
    cases h
    exact ⟨rfl, rfl⟩

/-- A sum moves with its relative operand. -/
theorem PlacedAs.add (ha : PlacedAs base a a') (hb : PlacedAs base b b')
    (h : a.apply .add b = .ok v) : ∃ w, a'.apply .add b' = .ok w ∧ PlacedAs base v w := by
  obtain ⟨x, s, ra⟩ := a
  obtain ⟨y, t, rb⟩ := b
  obtain ⟨x', s', ra'⟩ := a'
  obtain ⟨y', t', rb'⟩ := b'
  obtain ⟨rfl, rfl⟩ := ha
  obtain ⟨rfl, rfl⟩ := hb
  refine ⟨_, rfl, rfl, ?_⟩
  cases ra <;> cases rb <;> cases h
  · rfl
  · show x + (base t + y) = base t + (y + x)
    grind
  · show base s + x + y = base s + (x + y)
    grind

/-- A difference inside one section does not move. -/
theorem PlacedAs.subtract (ha : PlacedAs base a a') (hb : PlacedAs base b b')
    (h : a.apply .subtract b = .ok v) :
    ∃ w, a'.apply .subtract b' = .ok w ∧ PlacedAs base v w := by
  obtain ⟨x, s, ra⟩ := a
  obtain ⟨y, t, rb⟩ := b
  obtain ⟨x', s', ra'⟩ := a'
  obtain ⟨y', t', rb'⟩ := b'
  obtain ⟨rfl, rfl⟩ := ha
  obtain ⟨rfl, rfl⟩ := hb
  refine ⟨_, rfl, rfl, ?_⟩
  cases ra <;> cases rb
  · cases h
    rfl
  · cases h
  · cases h
    show base s + x - y = base s + (x - y)
    grind
  · change (if s == t then Except.ok { bits := x - y } else Except.error _) = Except.ok v at h
    split_ifs at h with hst
    cases h
    rw [eq_of_beq hst]
    show base t + x - (base t + y) = x - y
    grind

/-- A binary operator commutes with giving sections addresses, where it has a value. -/
theorem PlacedAs.apply {op : BinaryOp} (ha : PlacedAs base a a') (hb : PlacedAs base b b')
    (h : a.apply op b = .ok v) : ∃ w, a'.apply op b' = .ok w ∧ PlacedAs base v w := by
  cases op with
  | add => exact ha.add hb h
  | subtract => exact ha.subtract hb h
  | _ => exact ⟨v, ha.applyAbsolute hb h⟩

/-- A unary operator commutes with giving sections addresses, where it has a value. -/
theorem PlacedAs.applyUnary {op : UnaryOp} (ha : PlacedAs base a a') (h : a.applyUnary op = .ok v) :
    ∃ w, a'.applyUnary op = .ok w ∧ PlacedAs base v w := by
  obtain ⟨x, s, ra⟩ := a
  obtain ⟨x', s', ra'⟩ := a'
  obtain ⟨rfl, rfl⟩ := ha
  cases op with
  | plus =>
    cases h
    exact ⟨_, rfl, rfl, rfl⟩
  | _ =>
    -- the other operators refuse a relative operand
    cases ra with
    | false =>
      cases h
      exact ⟨_, rfl, rfl, rfl⟩
    | true => cases h

end Value

/-- The symbols once the sections have addresses: relative ones stand for numbers. -/
def Resolver.placed (symbols : Resolver) (base : UInt32 → UInt64) : Resolver := fun name =>
  (symbols name).map fun v => if v.relative then { bits := base v.home + v.bits } else v

namespace Statement

/-- Evaluation of a tree commutes with placing its symbols. -/
theorem Tree.value_placed (base : UInt32 → UInt64) {symbols : Resolver} {tree : Tree} {v : Value}
    (h : tree.value symbols = .ok v) :
    ∃ w, tree.value (symbols.placed base) = .ok w ∧ v.PlacedAs base w := by
  induction tree generalizing v with
  | literal n =>
    cases h
    exact ⟨_, rfl, rfl, rfl⟩
  | symbol name =>
    simp only [value, Resolver.placed] at h ⊢
    cases hsymbol : symbols name with
    | none =>
      rw [hsymbol] at h
      cases h
    | some u =>
      rw [hsymbol] at h
      cases h
      refine ⟨_, rfl, ?_⟩
      obtain ⟨x, s, _ | _⟩ := v
      · exact ⟨rfl, rfl⟩
      · exact ⟨rfl, rfl⟩
  | unary op operand ih =>
    obtain ⟨a, ha, happly⟩ := bind_eq_ok_iff.mp h
    obtain ⟨a', ha', hplaced⟩ := ih ha
    rw [value, ha', ok_bind]
    exact hplaced.applyUnary happly
  | binary op left right hleft hright =>
    obtain ⟨a, ha, hrest⟩ := bind_eq_ok_iff.mp h
    obtain ⟨b, hb, happly⟩ := bind_eq_ok_iff.mp hrest
    obtain ⟨a', ha', haplaced⟩ := hleft ha
    obtain ⟨b', hb', hbplaced⟩ := hright hb
    rw [value, ha', ok_bind, hb', ok_bind]
    exact haplaced.apply hbplaced happly

/-- **Expressions can be moved.** Take any text, any symbols, and any addresses for the sections. If
the text is read as a number, then it is read as the same number when symbols that are relative to
sections stand for their addresses instead. If it is read as an offset inside a section, it is then
read as the address of that offset. Either way the same text is taken. -/
theorem expression_placed (symbols : Resolver) (base : UInt32 → UInt64) {c d : Cursor} {v : Value}
    {span : Span} (h : expression symbols c = .ok ((v, span), d)) :
    ∃ w, expression (symbols.placed base) c = .ok ((w, span), d) ∧
      (∀ n, v.quantity = .absolute n → w.quantity = .absolute n) ∧
      ∀ s off, v.quantity = .relative s off → w.quantity = .absolute (base s + off) := by
  obtain ⟨hread, hspan⟩ := expression_eq_ok_iff.mp h
  obtain ⟨tree, htree⟩ := exists_tree_readBinary hread
  rw [htree] at hread
  obtain ⟨u, hvalue, hu⟩ := bind_eq_ok_iff.mp hread
  cases hu
  obtain ⟨w, hw, hrelative, hbits⟩ := Tree.value_placed base hvalue
  have hquantity : w.quantity = .absolute (v.address base) := by
    rw [Value.quantity, hrelative, hbits]
    rfl
  refine ⟨w, expression_eq_ok_iff.mpr ⟨?_, hspan⟩, ?_⟩
  · rw [htree, hw, ok_bind]
  · rw [hquantity]
    obtain ⟨x, t, _ | _⟩ := v
    · exact ⟨fun n hn => hn, fun s off hoff => nomatch hoff⟩
    · refine ⟨fun n hn => (nomatch hn), fun s off hoff => ?_⟩
      cases hoff
      rfl

/-- An offset that a distance was taken from, read with and without addresses. -/
theorem expression_placed_offset :
    let c : Cursor := ⟨0, 0, .ofString "2*4 + a - (a-b), b"⟩
    let base : UInt32 → UInt64 := fun s => if s = 3 then 0xfffffffffffffff0 else 0
    ∃ v w span d, expression neighbours c = .ok ((v, span), d) ∧ v.quantity = .relative 3 16 ∧
      expression (neighbours.placed base) c = .ok ((w, span), d) ∧ w.quantity = .absolute 0 := by
  have hread : expression neighbours ⟨0, 0, .ofString "2*4 + a - (a-b), b"⟩
      = .ok (({ bits := 16, home := 3, relative := true }, ⟨0, 0, 15⟩),
        ⟨0, 15, .ofString ", b"⟩) := by
    rw [expression_eq_ok_iff]
    decide +kernel
  intro c base
  obtain ⟨w, hw, -, hrelative⟩ := expression_placed neighbours base hread
  refine ⟨_, w, _, _, hread, rfl, hw, ?_⟩
  rw [hrelative 3 16 rfl]
  decide

end Statement

end CatalystAsm
