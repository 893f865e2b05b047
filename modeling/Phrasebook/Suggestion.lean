namespace Phrasebook

namespace Suggestion

/-- How many edits a suggestion may be away from a name. -/
def tolerance (name : String) : Nat := if 3 < name.toList.length then 2 else 1

/-- Nearer names come first, and names at one distance in increasing order. -/
def before (first second : Nat × String) : Bool :=
  first.1 < second.1 || (first.1 == second.1 && first.2 ≤ second.2)

end Suggestion

/-- Up to three of the available names that are close to a name, the closest first, by a distance of
texts. -/
def suggestions (distance : List Char → List Char → Nat) (name : String) (available : List String) :
    List String :=
  let scored := available.map fun other => (distance name.toList other.toList, other)
  let near := scored.filter fun candidate => candidate.1 ≤ Suggestion.tolerance name
  ((near.mergeSort Suggestion.before).take 3).map Prod.snd

end Phrasebook
