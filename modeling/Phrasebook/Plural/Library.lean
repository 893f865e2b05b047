import Phrasebook.Locale

/-!
Libraries of plural rules: what is asked of one. What the operands of a number are is up to the library.
-/

namespace Phrasebook.Plural

/-- Cardinal numbers count, ordinal numbers tell a place. -/
inductive Kind where
  | cardinal
  | ordinal
  deriving DecidableEq, Repr

inductive Category where
  | zero
  | one
  | two
  | few
  | many
  | other
  deriving DecidableEq, Repr

def Category.name : Category → String
  | .zero => "zero"
  | .one => "one"
  | .two => "two"
  | .few => "few"
  | .many => "many"
  | .other => "other"

structure Library where
  /-- The properties of a number that plural rules ask about. -/
  Operands : Type
  ofInt : Int64 → Operands
  /-- The operands of a written number, if it is one. -/
  read? : String → Option Operands
  /-- The rules of a locale, or why there are none. -/
  rules : Kind → Locale → Except String (Operands → Category)

end Phrasebook.Plural
