/-!
Doubles as exact numbers: a sign, a significand and a power of two.
-/

namespace Phrasebook.Decimal

/-- The finite double `± significand * 2 ^ exponent`. -/
structure Binary where
  negative : Bool
  significand : Nat
  exponent : Int
  deriving DecidableEq, Repr

/-- The leading bit of a significand: 52 bits of it are written, and this one is implied. -/
def leadingBit : Nat := 0x10000000000000

/-- The scale that infinities and values that are not numbers have in place of an exponent. -/
def infiniteScale : Nat := 2047

/-- The exponent of the smallest doubles. -/
def leastExponent : Int := -1074

/-- The sign bit, set also for negative zero. -/
def signBit (x : Float) : Bool := x.toBits.toNat / (2048 * leadingBit) == 1

/-- The exact value of a double, unless it is infinite or not a number. -/
def Binary.ofFloat? (x : Float) : Option Binary :=
  let fraction : Nat := x.toBits.toNat % leadingBit
  let scale : Nat := x.toBits.toNat / leadingBit % 2048
  if scale = infiniteScale then none
  else if scale = 0 then some ⟨signBit x, fraction, leastExponent⟩
  else some ⟨signBit x, leadingBit + fraction, leastExponent + scale - 1⟩

/-- A power as a fraction: numerator and denominator of `base ^ exponent`. -/
def powerRatio (base : Nat) (exponent : Int) : Nat × Nat :=
  if exponent < 0 then (1, Nat.pow base exponent.natAbs) else (Nat.pow base exponent.natAbs, 1)

theorem powerRatio_natCast (base exponent : Nat) :
    powerRatio base exponent = (Nat.pow base exponent, 1) :=
  if_neg (Int.not_lt.mpr (Int.natCast_nonneg _))

/-- The integer nearest to a fraction; a half goes to the even neighbour. -/
def divNearestEven (num den : Nat) : Nat :=
  let quotient := num / den
  let double := 2 * (num % den)
  if double < den then quotient
  else if den < double then quotient + 1
  else quotient + quotient % 2

end Phrasebook.Decimal
