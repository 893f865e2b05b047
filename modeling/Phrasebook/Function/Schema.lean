import Phrasebook.Value

/-!
Option types: what a function says about the options that it takes.
-/

namespace Phrasebook

inductive OptionType where
  | any
  | never
  | boolean
  | number
  | string
  /-- A text that is one of the listed ones. -/
  | oneOf (allowed : List String)
  /-- A value with the given type name. -/
  | named (name : String)
  deriving DecidableEq, Repr

/-- Whether an option of this type may have a value. -/
def OptionType.accepts (type : OptionType) (value : Value) : Bool :=
  match type with
  | .any => true
  | .never => false
  | .boolean => value.bool?.isSome
  | .number => value.isNumeric
  | .string => value.text?.isSome
  | .oneOf allowed => value.text?.any allowed.contains
  | .named name => value.typeName == name

inductive OptionSchema where
  /-- Every option has this type. -/
  | all (type : OptionType)
  /-- Only the listed options are taken. -/
  | each (types : List (String × OptionType))
  deriving DecidableEq, Repr

namespace OptionSchema

/-- Takes no option. -/
def none : OptionSchema := .each []

/-- Takes every option. -/
def any : OptionSchema := .all .any

/-- The type of an option, if it is taken. -/
def expected? (schema : OptionSchema) (name : String) : Option OptionType :=
  match schema with
  | .all type => some type
  | .each types => types.lookup name

end OptionSchema

end Phrasebook
