import Phrasebook.Decimal.Fixed
import Phrasebook.Decimal.Reading
import Phrasebook.Function.Library
import Phrasebook.Text.Space

namespace Phrasebook.Stock

/-- How many digits after the point there may be at most, whatever the options say. -/
def fractionLimit : Nat := 20

/-- How many digits after the point there may be where no option says otherwise. -/
def defaultFractionDigits : Nat := 3

/-- A number of digits from the value of an option: whole, not negative and not over the limit. -/
def digitCount (value : Float) : Nat :=
  if fractionLimit.toFloat ≤ value then fractionLimit
  else if 0 < value then value.toUInt64.toNat
  else 0

/-- The number of digits that an option asks for. -/
def digitOption? (invocation : Invocation) (name : String) : Option Nat :=
  ((invocation.option? name).bind Value.float?).map digitCount

/-- An integer with all of its digits, and zeros after a point if some are asked for. -/
def integerText (value : Int) (least : Nat) : List Char :=
  if least = 0 then Text.intText value
  else Text.intText value ++ '.' :: List.replicate least '0'

/-- A finite double rounded to `most` digits after the point, of which zeros at the end are dropped
down to `least`. -/
def fractionText (value : Decimal.Binary) (least most : Nat) : List Char :=
  Decimal.trimFraction least (Decimal.fixedText most value)

/-- The text of a double, unless it is infinite or not a number. -/
def floatText (value : Float) (least most : Nat) : Except Failure (List Char) :=
  match Decimal.Binary.ofFloat? value with
  | some binary => .ok (fractionText binary least most)
  | none => .error (.rangeError (Decimal.floatText value ++ " is not a finite number") [])

/-- A text that reads as a number, written as one. -/
def numeralText (text : String) (least most : Nat) : Except Failure (List Char) :=
  let digits := Text.trim text.toList
  match Text.readInt64? digits with
  | some value => .ok (integerText value.toInt least)
  | none =>
    match Decimal.readFloat digits with
    | .ok value => floatText value least most
    | .error problem =>
      .error (.rangeError ("'" ++ text ++ "' is not a number") [problem.message])

/-- Decimal text with at least `minimumFractionDigits` and at most `maximumFractionDigits` digits
after the point. Integers keep every digit. -/
def number (invocation : Invocation) : Except Failure Value := do
  let value ← match invocation.arguments with
    | value :: _ => .ok value
    | [] => .error (.typeError "number formatting needs an argument")
  let least := (digitOption? invocation "minimumFractionDigits").getD 0
  let most :=
    max ((digitOption? invocation "maximumFractionDigits").getD defaultFractionDigits) least
  let text ← match value with
    | .number integer => .ok (integerText integer.toInt least)
    | .float float => floatText float least most
    | .text text => numeralText text least most
    | other => .error (.typeError ("cannot format a " ++ other.typeName ++ " value as a number"))
  return .text (String.ofList text)

/-- The text of the first argument for the locales, or nothing if there is none. -/
def string (invocation : Invocation) : Except Failure Value :=
  .ok (.text ((invocation.arguments.head?.map (Value.localized invocation.locales)).getD ""))

end Phrasebook.Stock
