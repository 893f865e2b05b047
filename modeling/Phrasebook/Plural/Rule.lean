import Phrasebook.Plural.Library
import Phrasebook.Plural.Operands

/-!
Plural rules: for each category of a language a condition on operands. The condition of a category is
a list of alternatives, and an alternative a list of relations that all have to hold.
-/

namespace Phrasebook.Plural

/-- The name of an operand. `n` is the number itself, and `e` another name of `c`. -/
inductive OperandName where
  | n
  | i
  | v
  | w
  | f
  | t
  | e
  deriving DecidableEq, Repr

/-- The value of an operand. The number itself has one only where it is whole. -/
def OperandName.value? (operands : Operands) : OperandName → Option Nat
  | .n => if operands.w = 0 then some operands.i else none
  | .i => some operands.i
  | .v => some operands.v
  | .w => some operands.w
  | .f => some operands.f
  | .t => some operands.t
  | .e => some operands.c

/-- The whole numbers from `low` up to `high`. -/
structure Range where
  low : Nat
  high : Nat
  deriving DecidableEq, Repr

instance (k : Nat) : OfNat Range k := ⟨⟨k, k⟩⟩

def Range.contains (range : Range) (k : Nat) : Bool := range.low ≤ k && k ≤ range.high

/-- An operand, or its remainder. -/
structure Quantity where
  operand : OperandName
  modulus : Option Nat
  deriving DecidableEq, Repr

instance : HMod OperandName Nat Quantity := ⟨fun operand modulus => ⟨operand, some modulus⟩⟩

instance : Coe OperandName Quantity := ⟨fun operand => ⟨operand, none⟩⟩

def Quantity.value? (operands : Operands) (quantity : Quantity) : Option Nat :=
  (quantity.operand.value? operands).map fun value =>
    match quantity.modulus with
    | some modulus => value % modulus
    | none => value

/-- Whether a quantity is in one of some ranges, or in none of them. -/
structure Relation where
  quantity : Quantity
  negated : Bool
  ranges : List Range
  deriving DecidableEq, Repr

/-- A quantity without a value is in no range. -/
def Relation.holds (operands : Operands) (relation : Relation) : Bool :=
  let inside := (relation.quantity.value? operands).any fun value =>
    relation.ranges.any (·.contains value)
  inside != relation.negated

/-- The quantity is in one of the ranges. -/
def isIn (quantity : Quantity) (ranges : List Range) : Relation := ⟨quantity, false, ranges⟩

/-- The quantity is in none of the ranges. -/
def notIn (quantity : Quantity) (ranges : List Range) : Relation := ⟨quantity, true, ranges⟩

abbrev Condition := List (List Relation)

def Condition.holds (operands : Operands) (condition : Condition) : Bool :=
  condition.any fun relations => relations.all (·.holds operands)

/-- The conditions of a language by category. What satisfies none of them is in the category
`other`. -/
structure Rules where
  zero : Condition := []
  one : Condition := []
  two : Condition := []
  few : Condition := []
  many : Condition := []
  deriving DecidableEq, Repr

namespace Rules

/-- Puts every number into the category `other`. -/
def none : Rules := {}

/-- The first category whose condition holds. -/
def category (rules : Rules) (operands : Operands) : Category :=
  if rules.zero.holds operands then .zero
  else if rules.one.holds operands then .one
  else if rules.two.holds operands then .two
  else if rules.few.holds operands then .few
  else if rules.many.holds operands then .many
  else .other

end Rules

/-- Rules and the languages that follow them. -/
structure RuleGroup where
  languages : List String
  rules : Rules

/-- Rules of some regions of a language, where they differ from those of the language. -/
structure RegionalRules where
  language : String
  regions : List String
  rules : Rules

end Phrasebook.Plural
