/-!
# Binary floating-point numbers

A number of the binary64 format is its bit pattern. This module rounds quotients of naturals to
the format, reads decimals, and compares numbers. Only finite numbers are ever produced.

A finite number stands for `± significand · 2 ^ exponent`; `nearest` is the rounding that every
operation here ends with.
-/

namespace BuildQueue

/-- A binary64 number, given by its bits: sign, eleven bits of exponent, 52 of fraction. -/
structure Binary64 where
  bits : UInt64
deriving DecidableEq, Inhabited

namespace Binary64

/-- The weight of the sign bit. -/
def signWeight : Nat := 1 <<< 63

/-- The weight that the fraction of a normal number leaves out. -/
def hiddenWeight : Nat := 1 <<< 52

/-- The bits of positive infinity; the bits of all finite magnitudes are smaller. -/
def infinityBits : Nat := 0x7ff * hiddenWeight

/-- Whether the sign bit is set. -/
def isNegative (x : Binary64) : Bool := signWeight ≤ x.bits.toNat

/-- The bits without the sign. -/
def magnitudeBits (x : Binary64) : Nat := x.bits.toNat % signWeight

/-- Whether the number is one of the two zeros. -/
def isZero (x : Binary64) : Bool := x.magnitudeBits == 0

/-- The integer significand of a finite number. -/
def significand (x : Binary64) : Nat :=
  if x.magnitudeBits < hiddenWeight then x.magnitudeBits
  else x.magnitudeBits % hiddenWeight + hiddenWeight

/-- The power of two that scales the significand. -/
def exponent (x : Binary64) : Int :=
  if x.magnitudeBits < hiddenWeight then -1074
  else (x.magnitudeBits / hiddenWeight : Nat) - 1075

/-- The number with the given sign and magnitude bits. -/
def ofMagnitudeBits (negative : Bool) (magnitude : Nat) : Binary64 :=
  ⟨UInt64.ofNat (magnitude + if negative then signWeight else 0)⟩

/-- Two numbers are the same quantity if they have the same bits or are both zero. -/
def same (x y : Binary64) : Bool := x == y || (x.isZero && y.isZero)

theorem same_refl (x : Binary64) : same x x = true := by simp [same]

theorem same_symm {x y : Binary64} (h : same x y = true) : same y x = true := by
  simp only [same, Bool.or_eq_true, beq_iff_eq, Bool.and_eq_true] at h ⊢
  rcases h with h | h
  · exact .inl h.symm
  · exact .inr ⟨h.2, h.1⟩

theorem same_trans {x y z : Binary64} (h : same x y = true) (h' : same y z = true) :
    same x z = true := by
  simp only [same, Bool.or_eq_true, beq_iff_eq, Bool.and_eq_true] at h h' ⊢
  rcases h with rfl | h
  · exact h'
  · rcases h' with rfl | h'
    · exact .inr h
    · exact .inr ⟨h.1, h'.2⟩

/-- The natural nearest to a quotient; of two equally near ones the even one. -/
def divideToNearest (num den : Nat) : Nat :=
  let quotient := num / den
  let twice := 2 * (num % den)
  if twice < den then quotient
  else if den < twice then quotient + 1
  else quotient + quotient % 2

/-- A quotient of naturals times a power of two, again as a quotient. -/
def timesPowerOfTwo (num den : Nat) (power : Int) : Nat × Nat :=
  if 0 ≤ power then (num <<< power.toNat, den) else (num, den <<< (-power).toNat)

/-- The largest `e` with `2 ^ e ≤ num / den`, for a positive quotient. -/
def floorLog2 (num den : Nat) : Int :=
  let guess : Int := (Nat.log2 num : Int) - Nat.log2 den
  let (low, high) := timesPowerOfTwo den 1 guess
  if num * high < low then guess - 1 else guess

/-- The number nearest to a quotient of naturals, ties going to the even significand; none if
the quotient is too large for the format. -/
def nearest (negative : Bool) (num den : Nat) : Option Binary64 :=
  if num = 0 then some (ofMagnitudeBits negative 0)
  else
    let exponent := max (floorLog2 num den - 52) (-1074)
    let (scaledNum, scaledDen) := timesPowerOfTwo num den (-exponent)
    let magnitude :=
      (exponent + 1074).toNat * hiddenWeight + divideToNearest scaledNum scaledDen
    if magnitude < infinityBits then some (ofMagnitudeBits negative magnitude) else none

/-- The magnitude of a finite number as a quotient of naturals. -/
def toQuotient (x : Binary64) : Nat × Nat := timesPowerOfTwo x.significand 1 x.exponent

/-- The product of two magnitudes, rounded. -/
def mul (x y : Binary64) : Option Binary64 :=
  let (xNum, xDen) := x.toQuotient
  let (yNum, yDen) := y.toQuotient
  nearest false (xNum * yNum) (xDen * yDen)

/-- The quotient of two magnitudes of which the second is not zero, rounded. -/
def div (x y : Binary64) : Option Binary64 :=
  let (xNum, xDen) := x.toQuotient
  let (yNum, yDen) := y.toQuotient
  nearest false (xNum * yDen) (xDen * yNum)

/-- The largest power of ten below the range limit has this exponent. -/
def maxPowerOfTen : Nat := 308

/-- A magnitude scaled by a power of ten. The power is rounded before it is applied, and a power
too small for the format is applied in steps of `maxPowerOfTen`; `steps` bounds their number. -/
def scaleByTen (x : Binary64) (power : Int) : Nat → Option Binary64
  | 0 => some (ofMagnitudeBits false 0)
  | steps + 1 =>
    if 0 ≤ power then
      if x.isZero then some x
      else if power ≤ maxPowerOfTen then
        (nearest false (Nat.pow 10 power.toNat) 1).bind fun ten => x.mul ten
      else none
    else if -maxPowerOfTen ≤ power then
      (nearest false (Nat.pow 10 (-power).toNat) 1).bind fun ten => x.div ten
    else if x.isZero then some x
    else
      (nearest false (Nat.pow 10 maxPowerOfTen) 1).bind fun ten =>
        (x.div ten).bind fun smaller => smaller.scaleByTen (power + maxPowerOfTen) steps

/-- The number that a decimal `± digits · 10 ^ power` is read as: the digits are rounded first,
the scaling after that. None if the decimal is too large for the format. -/
def ofDecimal (negative : Bool) (digits : Nat) (power : Int) : Option Binary64 := do
  let whole ← nearest false digits 1
  -- Each step divides by more than 2 ^ 1023, so the fourth meets zero.
  let scaled ← whole.scaleByTen power 5
  return ofMagnitudeBits negative scaled.magnitudeBits

end Binary64
end BuildQueue
