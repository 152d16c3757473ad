import CatalystAsm.Statement.Argument
import CatalystAsm.Proofs.Statement.Arithmetic

/-!
# Ranges

A number is cut to the bits of the field that it is put into. The range of a field has the numbers
that fit it unsigned and the negative ones that fit it in two's complement (`outOfRange_iff`). These
are the numbers that the field gives back, by zero extension or by sign extension, so that a warning
about the range always tells of a loss (`range_warnings_mean_loss`).
-/

namespace CatalystAsm.Statement

/-- Whether a word fits a number of bits, unsigned or as a negative number in two's complement. -/
def Fits (bits : Nat) (v : UInt64) : Prop :=
  v.toNat < 2 ^ bits ∨ -2 ^ (bits - 1) ≤ signed v ∧ signed v < 0

instance (bits : Nat) (v : UInt64) : Decidable (Fits bits v) :=
  inferInstanceAs (Decidable (_ ∨ _ ∧ _))

theorem toNat_lt_of_wide {bits : Nat} (hwide : 64 ≤ bits) (v : UInt64) : v.toNat < 2 ^ bits :=
  v.toNat_lt.trans_le (Nat.pow_le_pow_right Nat.two_pos hwide)

/-- A range has what fits, where there are bits at all. -/
theorem outOfRange_iff {bits : Nat} (hbits : 0 < bits) {v : UInt64} :
    outOfRange bits v = true ↔ ¬Fits bits v := by
  have hnat : 1 <<< bits = 2 ^ bits := Nat.one_shiftLeft bits
  have hleast : ((1 <<< (bits - 1) : Nat) : Int) = 2 ^ (bits - 1) := by
    rw [Nat.one_shiftLeft]
    exact Nat.cast_pow 2 (bits - 1)
  unfold outOfRange Fits
  rw [hnat, hleast, toInt_toInt64]
  by_cases hwide : 64 ≤ bits
  · simp [hwide, toNat_lt_of_wide hwide v]
  · rw [if_neg hwide]
    by_cases hfits : v.toNat < 2 ^ bits
    · simp [hfits]
    · rw [if_neg hfits]
      simp only [Nat.ne_of_gt hbits, if_false, Bool.or_eq_true, decide_eq_true_eq]
      omega

/-! ## What the low bits give back -/

variable {bits : Nat} {v : UInt64}

/-- The low bits of a word: what is left of it in a field of that many bits. -/
def lowBits (bits : Nat) (v : UInt64) : BitVec bits := v.toBitVec.setWidth bits

/-- Whether the low bits of a word give it back, with zeros above them or with copies of the highest
of them. -/
def Recoverable (bits : Nat) (v : UInt64) : Prop :=
  (lowBits bits v).zeroExtend 64 = v.toBitVec ∨ (lowBits bits v).signExtend 64 = v.toBitVec

instance (bits : Nat) (v : UInt64) : Decidable (Recoverable bits v) :=
  inferInstanceAs (Decidable (_ ∨ _))

/-- Zeros above the low bits give back the words that fit unsigned. -/
theorem zeroExtend_lowBits_iff :
    (lowBits bits v).zeroExtend 64 = v.toBitVec ↔ v.toNat < 2 ^ bits := by
  have hlow : ((lowBits bits v).zeroExtend 64).toNat = v.toNat % 2 ^ bits := by
    rw [BitVec.zeroExtend_eq_setWidth, lowBits, BitVec.toNat_setWidth, BitVec.toNat_setWidth]
    exact Nat.mod_eq_of_lt ((Nat.mod_le _ _).trans_lt v.toNat_lt)
  rw [← BitVec.toNat_inj, hlow]
  exact Nat.mod_eq_iff_lt (Nat.two_pow_pos bits).ne'

/-- Copies of the highest of the low bits give back the words that fit with a sign. -/
theorem signExtend_lowBits_iff (hpos : 0 < bits) (hle : bits ≤ 64) :
    (lowBits bits v).signExtend 64 = v.toBitVec ↔
      -2 ^ (bits - 1) ≤ signed v ∧ signed v < 2 ^ (bits - 1) := by
  have hword : v.toBitVec.toInt = signed v := toInt_toInt64 v
  have hlow : ((lowBits bits v).signExtend 64).toInt = (signed v).bmod (2 ^ bits) := by
    rw [BitVec.toInt_signExtend_of_le hle, lowBits, BitVec.toInt_setWidth, ← hword,
      BitVec.toInt_eq_toNat_bmod, Int.bmod_bmod_of_dvd (Nat.pow_dvd_pow 2 hle)]
  have hhalf : 2 ^ bits = 2 * 2 ^ (bits - 1) := by
    rw [← Nat.pow_succ', Nat.succ_eq_add_one, Nat.sub_add_cancel hpos]
  have hzero : (2 * 2 ^ (bits - 1) : Int) ∣ 0 := Int.dvd_zero _
  -- A number is its own balanced remainder exactly when it lies in the balanced range.
  rw [← BitVec.toInt_inj, hlow, hword, Int.bmod_eq_iff (Nat.two_pow_pos bits), hhalf, Int.sub_self]
  push_cast
  omega

/-- A word that does not fit unsigned fits with a sign only as a negative number. -/
theorem signed_lt_iff (hfits : ¬v.toNat < 2 ^ bits) :
    signed v < 2 ^ (bits - 1) ↔ signed v < 0 := by
  have hmono : 2 ^ (bits - 1) ≤ 2 ^ bits := Nat.pow_le_pow_right Nat.two_pos (Nat.sub_le bits 1)
  have hpos : 0 < 2 ^ (bits - 1) := Nat.two_pow_pos _
  have hcast : ((2 ^ (bits - 1) : Nat) : Int) = 2 ^ (bits - 1) := Nat.cast_pow 2 (bits - 1)
  have hlt := v.toNat_lt
  rw [← hcast, signed]
  split_ifs <;> omega

/-- **A field gives back what fits it.** -/
theorem recoverable_iff_fits (hpos : 0 < bits) : Recoverable bits v ↔ Fits bits v := by
  unfold Recoverable Fits
  rw [zeroExtend_lowBits_iff]
  by_cases hfits : v.toNat < 2 ^ bits
  · exact iff_of_true (.inl hfits) (.inl hfits)
  · have hle : bits ≤ 64 := Nat.le_of_not_le fun hwide => hfits (toNat_lt_of_wide hwide v)
    rw [signExtend_lowBits_iff hpos hle, signed_lt_iff hfits]

/-- A field without bits gives back the word zero and no other, whichever way it is extended. -/
theorem recoverable_zero_iff : Recoverable 0 v ↔ v = 0 := by
  have hnone : lowBits 0 v = 0#0 := BitVec.eq_nil _
  have hsign : (0#0).signExtend 64 = 0#64 := rfl
  unfold Recoverable
  rw [hnone, BitVec.zeroExtend_eq_setWidth, BitVec.setWidth_zero, hsign, or_self, eq_comm]
  exact UInt64.toBitVec_inj

theorem outOfRange_zero_iff : outOfRange 0 v = false ↔ v = 0 := by
  have hzero : v.toNat < 1 <<< 0 ↔ v = 0 := Nat.lt_one_iff.trans toNat_eq_zero_iff
  unfold outOfRange
  rw [if_neg (by decide)]
  by_cases hv : v = 0
  · rw [if_pos (hzero.mpr hv)]
    exact iff_of_true rfl hv
  · -- The least number of a field without bits is zero, and every number is on one side of it.
    rw [if_neg (mt hzero.mp hv)]
    simp only [hv, iff_false, if_true, Bool.or_eq_false_iff, decide_eq_false_iff_not]
    omega

/-- The range of a field has the words that it gives back. -/
theorem outOfRange_eq_false_iff : outOfRange bits v = false ↔ Recoverable bits v := by
  rcases Nat.eq_zero_or_pos bits with rfl | hpos
  · rw [outOfRange_zero_iff, recoverable_zero_iff]
  · rw [recoverable_iff_fits hpos, Bool.eq_false_iff, Ne, outOfRange_iff hpos, not_not]

/-- **Range warnings mean real loss.** A word is in the range of a field, whatever the number of its
bits, exactly when the low bits give it back by zero extension or by sign extension; a field without
bits has zero alone in its range. Where there is a warning, neither extension gives the word back,
and where there is none, one of them does. -/
theorem range_warnings_mean_loss (bits : Nat) (v : UInt64) (span : Span) :
    (outOfRange bits v = false ↔ Recoverable bits v) ∧
      (outOfRange 0 v = false ↔ v = 0) ∧
      (rangeWarnings bits v span = [] ↔ Recoverable bits v) := by
  refine ⟨outOfRange_eq_false_iff, outOfRange_zero_iff, ?_⟩
  rw [← outOfRange_eq_false_iff, rangeWarnings]
  cases outOfRange bits v <;> simp

-- The two ends of the range of 32 bits, and the first word past each of them.
example : outOfRange 32 0xffffffff = false ∧ outOfRange 32 0x100000000 = true ∧
    outOfRange 32 (-0x80000000) = false ∧ outOfRange 32 (-0x80000001) = true := by
  decide

end CatalystAsm.Statement
