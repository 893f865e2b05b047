import Phrasebook.Function.Library
import Phrasebook.Plural.Library
import Phrasebook.Text.Space

/-!
The selectors `plural` and `ordinal`. They give the exact text of a number and its category, so that
variants may have either as a key.
-/

namespace Phrasebook.Stock

variable (plurals : Plural.Library)

/-- What plural rules depend on in a locale: its language and region. -/
def rulesKey (locale : Locale) : Locale := .ofLanguage locale.language locale.region

/-- The category of a number in a locale. -/
def pluralCategory (locale : Locale) (kind : Plural.Kind) (operands : plurals.Operands) :
    Except Failure String :=
  match plurals.rules kind (rulesKey locale) with
  | .ok categoryOf => .ok (categoryOf operands).name
  | .error reason =>
    .error (.rangeError ("no plural rules for locale '" ++ locale.tag ++ "': " ++ reason) [])

/-- The operands of a text; a minus sign in front has no part in them. -/
def readOperands (text : List Char) : Except Failure plurals.Operands :=
  let magnitude := match text with
    | '-' :: rest => rest
    | rest => rest
  match plurals.read? (String.ofList magnitude) with
  | some operands => .ok operands
  | none => .error (.rangeError ("'" ++ String.ofList text ++ "' is not a number") [])

/-- The exact text of a numeric argument, and its operands. -/
def exactForm (value : Value) : Except Failure (String × plurals.Operands) :=
  match value with
  | .number integer => .ok (Value.numberText integer, plurals.ofInt integer)
  | .float float =>
    let text := Decimal.floatText float
    (readOperands plurals text.toList).map fun operands => (text, operands)
  | .text text =>
    let trimmed := Text.trim text.toList
    (readOperands plurals trimmed).map fun operands => (String.ofList trimmed, operands)
  | other =>
    .error (.typeError ("cannot select a plural category for a " ++ other.typeName ++ " value"))

/-- The exact text of the first argument, and its category in the most preferred locale. -/
def selectPlural (kind : Plural.Kind) (invocation : Invocation) : Except Failure Value := do
  let value ← match invocation.arguments with
    | value :: _ => .ok value
    | [] => .error (.typeError "plural selection needs an argument")
  let (exact, operands) ← exactForm plurals value
  let category ← pluralCategory plurals (invocation.locales.headD .english) kind operands
  return .list [.text exact, .text category]

/-- Categories by cardinal rules, or by ordinal ones if the option `type` says so. -/
def plural (invocation : Invocation) : Except Failure Value :=
  let ordinal := ((invocation.option? "type").bind Value.text?) == some "ordinal"
  selectPlural plurals (if ordinal then .ordinal else .cardinal) invocation

/-- Categories by ordinal rules. -/
def ordinal (invocation : Invocation) : Except Failure Value :=
  selectPlural plurals .ordinal invocation

end Phrasebook.Stock
