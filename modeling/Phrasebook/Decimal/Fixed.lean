import Phrasebook.Decimal.Binary
import Phrasebook.Decimal.Positional

/-!
Doubles with a fixed number of digits after the point, rounded from their exact value, and the
removal of zeros at the end of a fraction.
-/

namespace Phrasebook.Decimal

/-- A finite double with exactly `places` digits after the point. The exact value is rounded, a half
to the even neighbour, and a negative sign stays even where only zeros are left. -/
def fixedText (places : Nat) (value : Binary) : List Char :=
  let power := powerRatio 2 value.exponent
  signed value.negative
    (pointText (divNearestEven (value.significand * Nat.pow 10 places * power.1) power.2) places)

/-- A list without the zeros at its end. -/
def dropTrailingZeros (digits : List Char) : List Char :=
  (digits.reverse.dropWhile (· == '0')).reverse

/-- Drops zeros at the end of the digits after the point, down to `least` digits, and with the last
of them the point. A text without a point stays. -/
def trimFraction (least : Nat) (text : List Char) : List Char :=
  let whole := text.takeWhile (· != '.')
  match text.dropWhile (· != '.') with
  | [] => text
  | point :: fraction =>
    match fraction.take least ++ dropTrailingZeros (fraction.drop least) with
    | [] => whole
    | kept => whole ++ point :: kept

end Phrasebook.Decimal
