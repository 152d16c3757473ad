import CatalystAsm.Bytes

/-!
# Decimal text of measured numbers

Measured numbers are binary fractions of 53 bits. A quotient is rounded to the nearest such fraction
first, and that fraction is rounded to a fixed number of decimal places; both times a tie goes to
the even neighbour.
-/

namespace CatalystAsm.Decimal

/-- A fraction that is not negative. -/
structure Fraction where
  num : Nat
  den : Nat
  deriving DecidableEq, Repr, Inhabited

/-- The nearest whole number; a tie goes to the even one. -/
def Fraction.round (q : Fraction) : Nat :=
  let low := q.num / q.den
  let rest := 2 * (q.num % q.den)
  if rest < q.den || (rest == q.den && low % 2 == 0) then low else low + 1

/-- The number of bits of a binary fraction. -/
def precision : Nat := 53

/-- The fraction times a power of two. -/
def Fraction.scale (q : Fraction) (e : Int) : Fraction :=
  ⟨q.num <<< e.toNat, q.den <<< (-e).toNat⟩

/-- How far a fraction is scaled so that its whole part has `precision` bits. -/
def Fraction.shift (q : Fraction) : Int :=
  let e : Int := precision - 1 - (q.num.log2 : Int) + q.den.log2
  let scaled := q.scale e
  if scaled.num / scaled.den < 1 <<< (precision - 1) then e + 1 else e

/-- The nearest binary fraction. -/
def Fraction.nearest (q : Fraction) : Fraction :=
  if q.num = 0 then ⟨0, 1⟩ else (Fraction.mk (q.scale q.shift).round 1).scale (-q.shift)

/-- The decimal digits of a fraction, rounded to `places` places after the point. -/
def Fraction.fixed (places : Nat) (q : Fraction) : Bytes :=
  let unit := Nat.pow 10 places
  let n := (Fraction.mk (q.num * unit) q.den).round
  .ofNat (n / unit) ++ Bytes.char '.' :: Bytes.padLeft places 0x30 (.ofNat (n % unit))

/-- A duration in nanoseconds as milliseconds with `places` places; one below zero keeps its
sign. -/
def milliseconds (places : Nat) (ns : Int) : Bytes :=
  let whole := Fraction.nearest ⟨ns.natAbs, 1⟩
  (if ns < 0 then [Bytes.char '-'] else []) ++
    (Fraction.nearest ⟨whole.num, whole.den * 1000000⟩).fixed places

end CatalystAsm.Decimal
