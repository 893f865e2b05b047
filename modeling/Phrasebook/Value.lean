import Phrasebook.Keyed
import Phrasebook.Locale
import Phrasebook.Metadata
import Phrasebook.Text.Integer

/-!
Runtime values: what a variable is bound to, what a function takes and returns. Only values of the
host depend on locales when they are written.
-/

namespace Phrasebook

/-- Which side of a marked span a marker stands for. -/
inductive MarkupKind where
  | opening
  | closing
  | standalone
  deriving DecidableEq, Repr

def MarkupKind.name : MarkupKind → String
  | .opening => "start"
  | .closing => "end"
  | .standalone => "standalone"

/-- A value that only the host can look into. Two of them are the same value when they have the same
identity. -/
structure HostValue where
  identity : Nat
  typeName : String
  render : List Locale → String
  scalar : Option Scalar

inductive Value where
  | bool (value : Bool)
  | number (value : Int64)
  | float (value : Float)
  | text (value : String)
  | list (items : List Value)
  /-- Values by key. -/
  | map (entries : List (String × Value))
  /-- A resolved markup marker with the options that were let through. -/
  | markup (kind : MarkupKind) (name : String) (options : List (String × Value))
  | host (value : HostValue)

namespace Value

instance : Inhabited Value := ⟨.text ""⟩

def number? : Value → Option Int64
  | .number value => some value
  | _ => none

/-- The double nearest to an integer. -/
def numberFloat (value : Int64) : Float := .ofInt value.toInt

/-- The value as a double, if it is numeric. -/
def float? : Value → Option Float
  | .float value => some value
  | .number value => some (numberFloat value)
  | _ => none

def text? : Value → Option String
  | .text value => some value
  | _ => none

def bool? : Value → Option Bool
  | .bool value => some value
  | _ => none

def list? : Value → Option (List Value)
  | .list items => some items
  | _ => none

/-- Whether the value is an integer or a float. -/
def isNumeric : Value → Bool
  | .number _ => true
  | .float _ => true
  | _ => false

/-- The type name that option types are checked against. -/
def typeName : Value → String
  | .bool _ => "boolean"
  | .number _ => "number"
  | .float _ => "number"
  | .text _ => "string"
  | .list _ => "object"
  | .map _ => "object"
  | .markup .. => "markup"
  | .host value => value.typeName

/-- The scalar that stands for the value in a metadata bag. Collections have none. -/
def scalar? : Value → Option Scalar
  | .bool value => some (.bool value)
  | .number value => some (.number (numberFloat value))
  | .float value => some (.number value)
  | .text value => some (.text value)
  | .list _ => none
  | .map _ => none
  | .markup .. => none
  | .host value => value.scalar

/-- One step of a path: the entry of a map under a key, or the item of a list at a position. -/
def child? (value : Value) (segment : String) : Option Value :=
  match value with
  | .map entries => entries.lookup segment
  | .list items => (Text.readWord? segment.toList).bind fun index => items[index]?
  | _ => none

/-- The decimal text of an integer. -/
def numberText (value : Int64) : String := String.ofList (Text.intText value.toInt)

mutual

/-- The plain text of a value. -/
def display : Value → String
  | .bool value => if value then "true" else "false"
  | .number value => numberText value
  | .float value => Decimal.floatText value
  | .text value => value
  | .list items => ", ".intercalate (displayItems items)
  | .map entries => "\x7b" ++ ", ".intercalate (displayEntries entries) ++ "\x7d"
  | .markup .. => ""
  | .host value => value.render []

def displayItems : List Value → List String
  | [] => []
  | item :: rest => display item :: displayItems rest

def displayEntries : List (String × Value) → List String
  | [] => []
  | (key, value) :: rest => (key ++ ": " ++ display value) :: displayEntries rest

end

mutual

/-- The text of a value for the given locales, the most preferred first. -/
def localized (locales : List Locale) : Value → String
  | .list items => ", ".intercalate (localizedItems locales items)
  | .host value => value.render locales
  | .bool value => display (.bool value)
  | .number value => display (.number value)
  | .float value => display (.float value)
  | .text value => display (.text value)
  | .map entries => display (.map entries)
  | .markup kind name options => display (.markup kind name options)

def localizedItems (locales : List Locale) : List Value → List String
  | [] => []
  | item :: rest => localized locales item :: localizedItems locales rest

end

mutual

/-- Whether two values are equal. Floats compare as numbers, so that one that is not a number
differs from itself; host values compare by identity. -/
def same : Value → Value → Bool
  | .bool a, .bool b => a == b
  | .number a, .number b => a == b
  | .float a, .float b => a == b
  | .text a, .text b => a == b
  | .list a, .list b => sameItems a b
  | .map a, .map b => sameEntries a b
  | .markup kind name options, .markup kind' name' options' =>
    kind == kind' && name == name' && sameEntries options options'
  | .host a, .host b => a.identity == b.identity
  | _, _ => false

def sameItems : List Value → List Value → Bool
  | [], [] => true
  | a :: as, b :: bs => same a b && sameItems as bs
  | _, _ => false

def sameEntries : List (String × Value) → List (String × Value) → Bool
  | [], [] => true
  | (key, a) :: as, (key', b) :: bs => key == key' && same a b && sameEntries as bs
  | _, _ => false

end

/-- A map of the given pairs; the last value of a repeated key stays. -/
def ofPairs (pairs : List (String × Value)) : Value := .map (Keyed.sortedOfPairs pairs)

/-- A count, as an integer where it fits and as the nearest float beyond. -/
def ofCount (count : Nat) : Value :=
  if count ≤ Int64.maxValue.toInt.toNat then .number (Int64.ofNat count)
  else .float (UInt64.ofNat count).toFloat

end Value

namespace Metadata

/-- Stores the scalar that stands for a value, if it has one. -/
def insertValue (bag : Metadata) (key : String) (value : Value) : Metadata :=
  match value.scalar? with
  | some scalar => bag.insert key scalar
  | none => bag

end Metadata

end Phrasebook
