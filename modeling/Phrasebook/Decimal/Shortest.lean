import Phrasebook.Decimal.Binary
import Phrasebook.Decimal.Positional

/-!
The shortest decimal text that reads back as a given double. Of the decimals with the fewest digits
among those that round to the double, the nearest one is taken.
-/

namespace Phrasebook.Decimal

/-- The multiples of `10 ^ exponent` next to a double, as far as they round to it. The interval of
numbers that round to the double includes its ends when the significand is even. -/
def gridHit? (significand : Nat) (binaryExponent exponent : Int) : Option Nat :=
  let unit := powerRatio 2 (binaryExponent - 2)
  let grid := powerRatio 10 exponent
  let scale := unit.1 * grid.2
  let step := unit.2 * grid.1
  let value := 4 * significand * scale
  let gapBelow := if significand = leadingBit ∧ leastExponent < binaryExponent then 1 else 2
  let lower := (4 * significand - gapBelow) * scale
  let upper := (4 * significand + 2) * scale
  let reads (candidate : Nat) : Bool :=
    if significand % 2 = 0 then lower ≤ candidate * step && candidate * step ≤ upper
    else lower < candidate * step && candidate * step < upper
  let below := value / step
  let above := below + 1
  match reads below, reads above with
  | true, true => some (if value - below * step < above * step - value then below else above)
  | true, false => some below
  | false, true => some above
  | false, false => none

/-- Goes from coarse grids to fine ones until one has a multiple that rounds to the double. -/
def firstHit (significand : Nat) (binaryExponent : Int) : Nat → Int → Nat × Int
  | 0, exponent => (0, exponent)
  | steps + 1, exponent =>
    match gridHit? significand binaryExponent exponent with
    | some digits => (digits, exponent)
    | none => firstHit significand binaryExponent steps (exponent - 1)

/-- Digits and power of ten of the shortest decimal for a positive double. The first grid tried is
coarser than the double; a grid of seventeen digits always has a hit. -/
def shortest (significand : Nat) (exponent : Int) : Nat × Int :=
  let bits : Int := significand.log2 + exponent + 1
  firstHit significand exponent 21 (bits * 30103 / 100000 + 1)

/-- The text of a double: its shortest decimal without an exponent, and no point in whole numbers. -/
def floatText (x : Float) : String :=
  match Binary.ofFloat? x with
  | none => if x.isNaN then "NaN" else if signBit x then "-inf" else "inf"
  | some value =>
    let magnitude :=
      if value.significand = 0 then ['0']
      else
        let decimal := shortest value.significand value.exponent
        positional decimal.1 decimal.2
    String.ofList (signed value.negative magnitude)

end Phrasebook.Decimal
