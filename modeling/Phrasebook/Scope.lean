import Phrasebook.Message.Operand
import Phrasebook.Value

namespace Phrasebook

/-- Layers of bindings, the innermost first. -/
structure Scope where
  layers : List (List (String × Value))

namespace Scope

def empty : Scope := ⟨[]⟩

/-- A scope of one layer; the last value of a repeated name counts. -/
def ofPairs (pairs : List (String × Value)) : Scope := ⟨[Keyed.ofPairs pairs]⟩

/-- Puts a layer over a scope. Its bindings hide those of the same name below. -/
def extend (scope : Scope) (bindings : List (String × Value)) : Scope :=
  ⟨bindings :: scope.layers⟩

/-- The binding of a name in the innermost layer that has one. -/
def get? (scope : Scope) (name : String) : Option Value :=
  scope.layers.findSome? fun layer => layer.lookup name

def contains (scope : Scope) (name : String) : Bool := (scope.get? name).isSome

mutual

/-- The text that a segment of a path stands for; a variable stands for the text of its value. -/
def segment? (scope : Scope) : Operand → Option String
  | .literal text _ => some text
  | .variable path _ => (follow? scope path).map Value.display

/-- The value at the end of a path, if every step finds one. -/
def follow? (scope : Scope) : List Operand → Option Value
  | [] => none
  | first :: rest => do
    let name ← segment? scope first
    let value ← scope.get? name
    step? scope value rest

/-- The value at the end of the later segments of a path, from a value on. -/
def step? (scope : Scope) (value : Value) : List Operand → Option Value
  | [] => some value
  | segment :: rest => do
    let key ← segment? scope segment
    let inner ← value.child? key
    step? scope inner rest

end

theorem get?_extend (scope : Scope) (bindings : List (String × Value)) (name : String) :
    (scope.extend bindings).get? name = (bindings.lookup name).or (scope.get? name) := by
  simp only [get?, extend, List.findSome?_cons]
  cases bindings.lookup name <;> rfl

end Scope

end Phrasebook
