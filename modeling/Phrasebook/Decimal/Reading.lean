import Phrasebook.Decimal.Binary
import Phrasebook.Text.Integer

/-!
Reading doubles from decimal text. The grammar is an optional sign, then `inf`, `infinity` or `nan`
in any case, or digits with an optional point and an optional exponent. The value read is the double
nearest to the decimal.
-/

namespace Phrasebook.Decimal

/-- Why a text is not a number. -/
inductive ReadError where
  | empty
  | malformed
  deriving DecidableEq, Repr

def ReadError.message : ReadError → String
  | .empty => "cannot parse float from empty string"
  | .malformed => "invalid float literal"

/-- The double without sign that has the given bits, or infinity if they are beyond it. -/
def ofMagnitudeBits (bits : Nat) : Float :=
  Float.ofBits (UInt64.ofNat (min bits (infiniteScale * leadingBit)))

/-- The double nearest to a positive fraction; a half goes to the even significand. -/
def nearest (num den : Nat) : Float :=
  let scaled (exponent : Int) : Nat × Nat :=
    let power := powerRatio 2 exponent
    (num * power.2, den * power.1)
  let guess : Int := (num.log2 : Int) - den.log2 - 52
  let small := (scaled guess).1 < leadingBit * (scaled guess).2
  let exponent := max (if small then guess - 1 else guess) leastExponent
  let significand := divNearestEven (scaled exponent).1 (scaled exponent).2
  ofMagnitudeBits ((exponent - leastExponent).toNat * leadingBit + significand)

/-- The double nearest to `digits * 10 ^ exponent`. Decimals far outside the range of doubles go
straight to infinity or zero. -/
def nearestDecimal (digits : Nat) (exponent : Int) : Float :=
  let magnitude : Int := (Text.natText digits).length + exponent
  if digits = 0 ∨ magnitude < -400 then 0.0
  else if 400 < magnitude then ofMagnitudeBits (infiniteScale * leadingBit)
  else
    let power := powerRatio 10 exponent
    nearest (digits * power.1) power.2

/-- The exponent at the end of a number: none, or a mark with an integer. -/
def readExponent? : List Char → Option Int
  | [] => some 0
  | mark :: text => if mark = 'e' ∨ mark = 'E' then Text.readInt? text else none

/-- Reads digits with an optional point and an optional exponent. -/
def readDecimal? (text : List Char) : Option Float :=
  let whole := text.takeWhile Char.isDigit
  let rest := text.dropWhile Char.isDigit
  let fraction := match rest with
    | '.' :: tail => tail.takeWhile Char.isDigit
    | _ => []
  let tail := match rest with
    | '.' :: tail => tail.dropWhile Char.isDigit
    | tail => tail
  match Text.readDigits? (whole ++ fraction), readExponent? tail with
  | some digits, some exponent => some (nearestDecimal digits (exponent - fraction.length))
  | _, _ => none

/-- Reads a number without a sign. -/
def readMagnitude? (text : List Char) : Option Float :=
  match String.ofList (text.map Char.toLower) with
  | "inf" | "infinity" => some (1.0 / 0.0)
  | "nan" => some (0.0 / 0.0)
  | _ => readDecimal? text

/-- Reads a double. -/
def readFloat (text : List Char) : Except ReadError Float :=
  match text with
  | [] => .error .empty
  | '-' :: rest => ((readMagnitude? rest).map fun x => -x).elim (.error .malformed) .ok
  | '+' :: rest => (readMagnitude? rest).elim (.error .malformed) .ok
  | rest => (readMagnitude? rest).elim (.error .malformed) .ok

end Phrasebook.Decimal
