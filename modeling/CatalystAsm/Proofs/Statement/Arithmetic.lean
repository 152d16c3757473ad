import CatalystAsm.Statement.Fault
import CatalystAsm.Statement.Expression
import Mathlib.Tactic.Ring

/-!
# The arithmetic of expressions

An expression stands for a number or for a place in a section. What an operator gives on numbers is
an exact integer, cut to 64 bits; on places it is defined where moving the sections cannot change
what it means. The operators on values compute just that (`Value.shows_apply`,
`Value.shows_applyUnary`).
-/

namespace CatalystAsm

/-! ## Numbers -/

/-- The integer that a word stands for when its highest bit is a sign. -/
def signed (x : UInt64) : Int := if x.toNat < 2 ^ 63 then x.toNat else x.toNat - 2 ^ 64

/-- One for what holds and zero for what does not. -/
def truth (p : Prop) [Decidable p] : Int := if p then 1 else 0

/-- The exact integer that an operator gives on two words. Division is unsigned, comparisons are
signed, and shift counts are taken modulo 64. -/
def BinaryOp.number (op : BinaryOp) (x y : UInt64) : Int :=
  match op with
  | .orElse => truth (x.toNat ≠ 0 ∨ y.toNat ≠ 0)
  | .andAlso => truth (x.toNat ≠ 0 ∧ y.toNat ≠ 0)
  | .bitOr => (x.toNat ||| y.toNat : Nat)
  | .bitXor => (x.toNat ^^^ y.toNat : Nat)
  | .bitAnd => (x.toNat &&& y.toNat : Nat)
  | .equal => truth (x.toNat = y.toNat)
  | .notEqual => truth (x.toNat ≠ y.toNat)
  | .less => truth (signed x < signed y)
  | .lessEqual => truth (signed x ≤ signed y)
  | .greater => truth (signed y < signed x)
  | .greaterEqual => truth (signed y ≤ signed x)
  | .shiftLeft => (x.toNat * 2 ^ (y.toNat % 64) : Nat)
  | .shiftRight => (x.toNat / 2 ^ (y.toNat % 64) : Nat)
  | .add => x.toNat + y.toNat
  | .subtract => x.toNat - y.toNat
  | .multiply => x.toNat * y.toNat
  | .divide => (x.toNat / y.toNat : Nat)
  | .remainder => (x.toNat % y.toNat : Nat)

/-- The exact integer that an operator gives on a word. -/
def UnaryOp.number (op : UnaryOp) (x : UInt64) : Int :=
  match op with
  | .plus => x.toNat
  | .minus => -x.toNat
  | .complement => 2 ^ 64 - 1 - x.toNat
  | .negate => truth (x.toNat = 0)

/-- Whether an operator has no result for a second operand of zero. -/
def BinaryOp.divides (op : BinaryOp) : Bool := op = .divide || op = .remainder

theorem ofInt_natCast (n : Nat) : UInt64.ofInt n = UInt64.ofNat n := by
  unfold UInt64.ofInt
  apply UInt64.toNat_inj.mp
  rw [UInt64.toNat_ofNat', UInt64.toNat_ofNat']
  omega

/-- A word is the cut of an integer that is its number. -/
theorem eq_ofInt {x : UInt64} {n : Int} (h : n = x.toNat) : x = UInt64.ofInt n := by
  rw [h, ofInt_natCast, UInt64.ofNat_toNat]

/-- A word read as a signed one is the integer that it stands for. -/
theorem toInt_toInt64 (x : UInt64) : x.toInt64.toInt = signed x := by
  show x.toBitVec.toInt = signed x
  rw [BitVec.toInt_eq_toNat_cond, signed]
  have hbits : x.toBitVec.toNat = x.toNat := rfl
  rw [hbits]
  split_ifs <;> omega

/-- The signed comparison of words compares the integers that they stand for. -/
theorem signedLess_eq (x y : UInt64) : Value.signedLess x y = decide (signed x < signed y) := by
  rw [Value.signedLess, ← toInt_toInt64, ← toInt_toInt64]
  exact decide_eq_decide.mpr Int64.lt_iff_toInt_lt

/-- A truth value as a word. -/
theorem ofBool_eq {b : Bool} {p : Prop} [Decidable p] (h : b = true ↔ p) :
    Value.ofBool b = UInt64.ofInt (truth p) := by
  by_cases hp : p
  · rw [h.mpr hp, truth, if_pos hp]
    rfl
  · rw [Bool.eq_false_iff.mpr fun hb => hp (h.mp hb), truth, if_neg hp]
    rfl

theorem toNat_eq_zero_iff {x : UInt64} : x.toNat = 0 ↔ x = 0 := UInt64.toNat_inj (b := 0)

/-- A shift count is taken modulo 64. -/
theorem toNat_shiftCount (y : UInt64) : (y &&& 63).toNat % 64 = y.toNat % 64 := by
  rw [UInt64.toNat_and]
  have hmask := Nat.and_two_pow_sub_one_eq_mod y.toNat 6
  change (y.toNat &&& 63) = _ at hmask
  change (y.toNat &&& 63) % 64 = _
  omega

/-- A shift to the left multiplies by a power of two, as far as the word reaches. -/
theorem shiftLeft_eq (x y : UInt64) :
    x <<< (y &&& 63) = UInt64.ofInt (x.toNat * 2 ^ (y.toNat % 64) : Nat) := by
  rw [ofInt_natCast, ← UInt64.toNat_inj, UInt64.toNat_shiftLeft, toNat_shiftCount,
    Nat.shiftLeft_eq, UInt64.toNat_ofNat']

/-- A shift to the right divides by a power of two. -/
theorem shiftRight_eq (x y : UInt64) :
    x >>> (y &&& 63) = UInt64.ofInt (x.toNat / 2 ^ (y.toNat % 64) : Nat) := by
  apply eq_ofInt
  rw [UInt64.toNat_shiftRight, toNat_shiftCount, Nat.shiftRight_eq_div_pow]

/-- **Absolute operands.** An operator gives the exact integer, cut to 64 bits; only a division by
zero has no result. -/
theorem arithmetic_eq (op : BinaryOp) (x y : UInt64) : Value.arithmetic op x y
    = if op.divides && y = 0 then none else some (UInt64.ofInt (op.number x y)) := by
  cases op with
  | orElse => exact congrArg some (ofBool_eq (by simp [toNat_eq_zero_iff]))
  | andAlso => exact congrArg some (ofBool_eq (by simp [toNat_eq_zero_iff]))
  | equal => exact congrArg some (ofBool_eq (by simp [UInt64.toNat_inj]))
  | notEqual => exact congrArg some (ofBool_eq (by simp [UInt64.toNat_inj]))
  | less => exact congrArg some (ofBool_eq (by simp [signedLess_eq]))
  | lessEqual => exact congrArg some (ofBool_eq (by simp [signedLess_eq]))
  | greater => exact congrArg some (ofBool_eq (by simp [signedLess_eq]))
  | greaterEqual => exact congrArg some (ofBool_eq (by simp [signedLess_eq]))
  | bitOr => exact congrArg some (eq_ofInt (congrArg Nat.cast (UInt64.toNat_or x y).symm))
  | bitXor => exact congrArg some (eq_ofInt (congrArg Nat.cast (UInt64.toNat_xor x y).symm))
  | bitAnd => exact congrArg some (eq_ofInt (congrArg Nat.cast (UInt64.toNat_and x y).symm))
  | shiftLeft => exact congrArg some (shiftLeft_eq x y)
  | shiftRight => exact congrArg some (shiftRight_eq x y)
  | add =>
    refine congrArg some ?_
    rw [BinaryOp.number, UInt64.ofInt_add, ofInt_natCast, ofInt_natCast, UInt64.ofNat_toNat,
      UInt64.ofNat_toNat]
  | subtract =>
    refine congrArg some ?_
    rw [BinaryOp.number, Int.sub_eq_add_neg, UInt64.ofInt_add, UInt64.ofInt_neg, ofInt_natCast,
      ofInt_natCast, UInt64.ofNat_toNat, UInt64.ofNat_toNat, UInt64.sub_eq_add_neg]
  | multiply =>
    refine congrArg some ?_
    rw [BinaryOp.number, UInt64.ofInt_mul, ofInt_natCast, ofInt_natCast, UInt64.ofNat_toNat,
      UInt64.ofNat_toNat]
  | divide =>
    by_cases hy : y = 0
    · simp [Value.arithmetic, BinaryOp.divides, hy]
    · have hdiv := eq_ofInt (x := x / y) (congrArg Nat.cast (UInt64.toNat_div x y).symm)
      simp [Value.arithmetic, BinaryOp.divides, hy, BinaryOp.number, hdiv]
  | remainder =>
    by_cases hy : y = 0
    · simp [Value.arithmetic, BinaryOp.divides, hy]
    · have hmod := eq_ofInt (x := x % y) (congrArg Nat.cast (UInt64.toNat_mod x y).symm)
      simp [Value.arithmetic, BinaryOp.divides, hy, BinaryOp.number, hmod]

/-! ## Quantities -/

/-- What an expression stands for: a number, or an offset in a section. -/
inductive Quantity where
  | absolute (number : UInt64)
  | relative (home : UInt32) (offset : UInt64)
  deriving DecidableEq, Repr

/-- Why an expression stands for nothing. -/
inductive Obstacle where
  | undefinedSymbol
  | zeroDivisor
  | relativeOperand
  deriving DecidableEq, Repr

/-- The code that an obstacle is reported under. -/
def Obstacle.code : Obstacle → Code
  | undefinedSymbol => .undefinedSymbol
  | zeroDivisor => .divisionByZero
  | relativeOperand => .notAbsolute

/-- What an operator gives on two quantities. A place may be moved by a number, and two places of
one section have a distance; no other operator takes a place. -/
def BinaryOp.combine (op : BinaryOp) : Quantity → Quantity → Except Obstacle Quantity
  | .absolute x, .absolute y =>
    if op.divides && y = 0 then .error .zeroDivisor
    else .ok (.absolute (UInt64.ofInt (op.number x y)))
  | .relative s x, .absolute y =>
    if op = .add ∨ op = .subtract then .ok (.relative s (UInt64.ofInt (op.number x y)))
    else .error .relativeOperand
  | .absolute x, .relative t y =>
    if op = .add then .ok (.relative t (UInt64.ofInt (op.number x y)))
    else .error .relativeOperand
  | .relative s x, .relative t y =>
    if op = .subtract ∧ s = t then .ok (.absolute (UInt64.ofInt (op.number x y)))
    else .error .relativeOperand

/-- What an operator gives on a quantity. Only a plus sign takes a place. -/
def UnaryOp.combine (op : UnaryOp) : Quantity → Except Obstacle Quantity
  | .absolute x => .ok (.absolute (UInt64.ofInt (op.number x)))
  | .relative s x => if op = .plus then .ok (.relative s x) else .error .relativeOperand

namespace Value

/-- The quantity that a value is. -/
def quantity (v : Value) : Quantity :=
  if v.relative then .relative v.home v.bits else .absolute v.bits

/-- A computed value is a quantity, or one fault is reported as an obstacle. -/
inductive Shows : Except (List Fault) Value → Except Obstacle Quantity → Prop
  | value (v : Value) : Shows (.ok v) (.ok v.quantity)
  | fault {f : Fault} {o : Obstacle} (h : f.code = o.code) : Shows (.error [f]) (.error o)

/-- What is computed from a value shows what is made of its quantity. -/
theorem Shows.bind {x : Except (List Fault) Value} {q : Except Obstacle Quantity}
    {f : Value → Except (List Fault) Value} {g : Quantity → Except Obstacle Quantity}
    (hx : Shows x q) (hf : ∀ v, Shows (f v) (g v.quantity)) : Shows (x >>= f) (q >>= g) := by
  cases hx with
  | value v => exact hf v
  | fault h => exact .fault h

/-- Where there is a quantity, there is a value that is it. -/
theorem Shows.exists_value {x : Except (List Fault) Value} {q : Quantity} (h : Shows x (.ok q)) :
    ∃ v, x = .ok v ∧ v.quantity = q := by
  cases h with
  | value v => exact ⟨v, rfl, rfl⟩

/-- Where there is an obstacle, one fault is reported under its code. -/
theorem Shows.exists_fault {x : Except (List Fault) Value} {o : Obstacle} (h : Shows x (.error o)) :
    ∃ f, x = .error [f] ∧ f.code = o.code := by
  cases h with
  | fault h => exact ⟨_, rfl, h⟩

theorem arithmetic_add (x y : UInt64) : x + y = UInt64.ofInt (BinaryOp.add.number x y) :=
  Option.some.inj (arithmetic_eq .add x y)

theorem arithmetic_subtract (x y : UInt64) :
    x - y = UInt64.ofInt (BinaryOp.subtract.number x y) :=
  Option.some.inj (arithmetic_eq .subtract x y)

/-- Every operator but the sum and the difference takes numbers alone. -/
theorem shows_applyAbsolute {op : BinaryOp} (hadd : op ≠ .add) (hsub : op ≠ .subtract)
    (a b : Value) : Shows (applyAbsolute op a b) (op.combine a.quantity b.quantity) := by
  obtain ⟨x, s, _ | _⟩ := a <;> obtain ⟨y, t, _ | _⟩ := b
  · -- only two numbers get past the check
    change Shows _ (op.combine (.absolute x) (.absolute y))
    rw [applyAbsolute]
    dsimp only
    rw [Bool.or_false, if_neg Bool.false_ne_true, arithmetic_eq, BinaryOp.combine]
    split_ifs
    · exact .fault rfl
    · exact .value _
  · change Shows _ (op.combine (.absolute x) (.relative t y))
    rw [BinaryOp.combine, if_neg hadd]
    exact .fault rfl
  · change Shows _ (op.combine (.relative s x) (.absolute y))
    rw [BinaryOp.combine, if_neg (not_or.mpr ⟨hadd, hsub⟩)]
    exact .fault rfl
  · change Shows _ (op.combine (.relative s x) (.relative t y))
    rw [BinaryOp.combine, if_neg (not_and_of_not_left _ hsub)]
    exact .fault rfl

/-- A sum of values is the sum of their quantities, or one fault is reported. -/
theorem shows_add (a b : Value) :
    Shows (a.apply .add b) (BinaryOp.add.combine a.quantity b.quantity) := by
  obtain ⟨x, s, _ | _⟩ := a <;> obtain ⟨y, t, _ | _⟩ := b
  · change Shows _ (.ok (.absolute (UInt64.ofInt (BinaryOp.add.number x y))))
    rw [← arithmetic_add]
    exact .value ⟨x + y, s, false⟩
  · change Shows _ (.ok (.relative t (UInt64.ofInt (BinaryOp.add.number x y))))
    rw [← arithmetic_add, UInt64.add_comm]
    exact .value ⟨y + x, t, true⟩
  · change Shows _ (.ok (.relative s (UInt64.ofInt (BinaryOp.add.number x y))))
    rw [← arithmetic_add]
    exact .value ⟨x + y, s, true⟩
  · exact .fault rfl

/-- A difference of values is that of their quantities, or one fault is reported. -/
theorem shows_subtract (a b : Value) :
    Shows (a.apply .subtract b) (BinaryOp.subtract.combine a.quantity b.quantity) := by
  obtain ⟨x, s, _ | _⟩ := a <;> obtain ⟨y, t, _ | _⟩ := b
  · change Shows _ (.ok (.absolute (UInt64.ofInt (BinaryOp.subtract.number x y))))
    rw [← arithmetic_subtract]
    exact .value ⟨x - y, s, false⟩
  · exact .fault rfl
  · change Shows _ (.ok (.relative s (UInt64.ofInt (BinaryOp.subtract.number x y))))
    rw [← arithmetic_subtract]
    exact .value ⟨x - y, s, true⟩
  · change Shows _ (BinaryOp.subtract.combine (.relative s x) (.relative t y))
    rw [BinaryOp.combine, ← arithmetic_subtract]
    by_cases hhome : s = t
    · rw [if_pos ⟨rfl, hhome⟩, apply, if_pos (by simp [hhome])]
      exact .value { bits := x - y }
    · rw [if_neg (not_and_of_not_right _ hhome), apply, if_neg (by simp [hhome])]
      exact .fault rfl

/-- **A binary operator on values gives what it gives on quantities.** -/
theorem shows_apply (op : BinaryOp) (a b : Value) :
    Shows (a.apply op b) (op.combine a.quantity b.quantity) := by
  by_cases hadd : op = .add
  · rw [hadd]
    exact shows_add a b
  by_cases hsub : op = .subtract
  · rw [hsub]
    exact shows_subtract a b
  have happly : a.apply op b = applyAbsolute op a b := by
    unfold apply
    split
    · exact absurd rfl hadd
    · exact absurd rfl hsub
    · rfl
  rw [happly]
  exact shows_applyAbsolute hadd hsub a b

/-- **A unary operator on a value gives what it gives on the quantity.** -/
theorem shows_applyUnary (op : UnaryOp) (v : Value) :
    Shows (v.applyUnary op) (op.combine v.quantity) := by
  obtain ⟨x, s, _ | _⟩ := v
  · have hword (w : UInt64) (h : w = UInt64.ofInt (op.number x)) :
        Shows (.ok ⟨w, s, false⟩) (op.combine (.absolute x)) := by
      rw [UnaryOp.combine, ← h]
      exact .value ⟨w, s, false⟩
    cases op with
    | plus => exact hword x (eq_ofInt rfl)
    | minus =>
      refine hword (-x) ?_
      rw [UnaryOp.number, UInt64.ofInt_neg, ofInt_natCast, UInt64.ofNat_toNat]
    | complement =>
      refine hword (~~~x) (eq_ofInt ?_)
      have hlt := x.toNat_lt
      rw [UnaryOp.number, UInt64.toNat_not]
      change (2 ^ 64 - 1 - (x.toNat : Int)) = ((2 ^ 64 - 1 - x.toNat : Nat) : Int)
      omega
    | negate => exact hword _ (ofBool_eq (by simp [toNat_eq_zero_iff]))
  · cases op with
    | plus => exact .value ⟨x, s, true⟩
    | minus => exact .fault rfl
    | complement => exact .fault rfl
    | negate => exact .fault rfl

/-- An operator that gives no value reports one fault. -/
theorem Shows.exists_eq_singleton {faults : List Fault} {q : Except Obstacle Quantity}
    (h : Shows (.error faults) q) : ∃ fault, faults = [fault] := by
  cases h with
  | fault h => exact ⟨_, rfl⟩

/-- A binary operator fails with one fault. -/
theorem exists_fault_of_apply {op : BinaryOp} {a b : Value} {faults : List Fault}
    (h : a.apply op b = .error faults) : ∃ fault, faults = [fault] :=
  (h ▸ shows_apply op a b).exists_eq_singleton

/-- A unary operator fails with one fault. -/
theorem exists_fault_of_applyUnary {op : UnaryOp} {v : Value} {faults : List Fault}
    (h : v.applyUnary op = .error faults) : ∃ fault, faults = [fault] :=
  (h ▸ shows_applyUnary op v).exists_eq_singleton

end Value

end CatalystAsm
