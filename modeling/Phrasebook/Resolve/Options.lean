import Phrasebook.Decimal.Reading
import Phrasebook.Function.Library
import Phrasebook.Scope
import Phrasebook.Text.Space

namespace Phrasebook

/-- Reads a number, as an integer where it is one. Infinities are not numbers here. -/
def readNumber? (text : String) : Option Value :=
  let digits := Text.trim text.toList
  match Text.readInt64? digits with
  | some value => some (.number value)
  | none =>
    match Decimal.readFloat digits with
    | .ok value => if value.isFinite then some (.float value) else none
    | .error _ => none

/-- The value of an option that is written as text, by the type that is expected. -/
def OptionType.valueOf (type : OptionType) (text : String) : Value :=
  match type with
  | .boolean =>
    if text = "true" then .bool true else if text = "false" then .bool false else .text text
  | .number => (readNumber? text).getD (.text text)
  | _ => .text text

/-- The value of an option. There is none for an option that is not taken, a variable without a
value, or a value of another type than the expected one. -/
def resolveOption? (schema : OptionSchema) (scope : Scope) (name : String) (operand : Operand) :
    Option Value := do
  let type ← schema.expected? name
  let value ← match operand with
    | .literal text _ => some (type.valueOf text)
    | .variable path _ => scope.follow? path
  if type.accepts value then some value else none

/-- The options that a schema lets through, in increasing order of their names. -/
def resolveOptions (options : Options) (schema : OptionSchema) (scope : Scope) :
    List (String × Value) :=
  Keyed.sortedOfPairs <| options.filterMap fun entry =>
    (resolveOption? schema scope entry.1 entry.2).map fun value => (entry.1, value)

/-- The values of arguments, or the first variable that has none as it is displayed. -/
def resolveArguments (scope : Scope) : List Operand → Except String (List Value)
  | [] => .ok []
  | .literal text _ :: rest => (resolveArguments scope rest).map (.text text :: ·)
  | .variable path bag :: rest =>
    match scope.follow? path with
    | some value => (resolveArguments scope rest).map (value :: ·)
    | none => .error (Operand.variable path bag).display

end Phrasebook
