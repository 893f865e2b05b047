import Phrasebook.Message.Basic
import Phrasebook.Value

namespace Phrasebook

/-- How a key matches a selector. -/
inductive KeyMatch where
  | exact
  /-- The key is one of several values, such as a plural category. -/
  | member
  | default
  | wildcard
  deriving DecidableEq, Repr

/-- What keys are compared with: the value of a selector, and its default key. -/
structure ResolvedSelector where
  value : Value
  defaultKey : String

/-- Whether a key is the text of a scalar value. -/
def Value.isKey (value : Value) (key : String) : Bool :=
  match value with
  | .text plain => plain == key
  | .number integer => numberText integer == key
  | .float double => Decimal.floatText double == key
  | _ => false

/-- Whether a key is the text of a scalar item of a list. -/
def Value.hasKey (value : Value) (key : String) : Bool :=
  value.list?.any fun items => items.any fun item => item.isKey key

def ResolvedSelector.match? (selector : ResolvedSelector) : VariantKey → Option KeyMatch
  | .wildcard => some .wildcard
  | .literal key =>
    if selector.value.isKey key then some .exact
    else if selector.value.hasKey key then some .member
    else if key = selector.defaultKey then some .default
    else none

/-- How keys match selectors, one by one, if there are as many and all of them match. -/
def matchKeys? : List ResolvedSelector → List VariantKey → Option (List KeyMatch)
  | [], [] => some []
  | selector :: selectors, key :: keys => do
    let first ← selector.match? key
    let rest ← matchKeys? selectors keys
    pure (first :: rest)
  | _, _ => none

/-- A chosen pattern, if there is one, and metadata about the choice. -/
structure Selection where
  pattern : Option Pattern
  metadata : Option Metadata

namespace Selection

/-- The positions of selectors that were matched otherwise than exactly. -/
def inexact (kinds : List KeyMatch) : List Nat :=
  (kinds.zipIdx.filter fun entry => entry.1 != .exact).map Prod.snd

/-- The metadata of a choice: the positions of inexact matches if there are any, and the number of
matching variants if there are several. -/
def notes (kinds : List KeyMatch) (candidates : Nat) : Metadata :=
  let positions := inexact kinds
  let bag :=
    if positions.isEmpty then Metadata.empty
    else Metadata.empty.insert "select_fallback"
      (.text (",".intercalate (positions.map toString)))
  if 1 < candidates then bag.insert "select_candidates" (.number (Float.ofNat candidates)) else bag

/-- The choice of the first matching variant. -/
def choose (selectors : List ResolvedSelector) (variants : List Variant) : Selection :=
  let candidates := variants.filterMap fun variant =>
    (matchKeys? selectors variant.keys).map fun kinds => (variant, kinds)
  match candidates with
  | [] => ⟨none, none⟩
  | (variant, kinds) :: _ =>
    let bag := notes kinds candidates.length
    ⟨some variant.value, if bag.isEmpty then none else some bag⟩

end Selection

end Phrasebook
