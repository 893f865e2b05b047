import Phrasebook.Text.Integer

/-!
Positional decimal text: digits with a point in them, never an exponent.
-/

namespace Phrasebook.Decimal

/-- `digits / 10 ^ places`, with exactly `places` digits after the point and at least one before. -/
def pointText (digits places : Nat) : List Char :=
  let written := Text.natText digits
  let padded := List.replicate (places + 1 - written.length) '0' ++ written
  let whole := padded.take (padded.length - places)
  if places = 0 then whole else whole ++ '.' :: padded.drop (padded.length - places)

/-- `digits * 10 ^ exponent` without an exponent. -/
def positional (digits : Nat) (exponent : Int) : List Char :=
  if exponent < 0 then pointText digits exponent.natAbs
  else pointText (digits * Nat.pow 10 exponent.natAbs) 0

/-- A text with a minus sign in front, where one is wanted. -/
def signed (negative : Bool) (text : List Char) : List Char :=
  if negative then '-' :: text else text

end Phrasebook.Decimal
