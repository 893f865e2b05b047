namespace Phrasebook.Text

/-- One more row of the table of distances. `corner` is the distance above and to the left of the
next entry, `left` the entry before it, and the list is what is left of the row above. -/
def extendRow (c : Char) : Nat → Nat → List Char → List Nat → List Nat
  | corner, left, target :: targets, above :: row =>
    let entry := min (min (above + 1) (left + 1)) (if c = target then corner else corner + 1)
    entry :: extendRow c above entry targets row
  | _, _, _, _ => []

/-- The row of distances to every prefix of a target, for a source with one more character. -/
def nextRow (targets : List Char) (row : List Nat) (c : Char) : List Nat :=
  match row with
  | [] => []
  | corner :: above => (corner + 1) :: extendRow c corner (corner + 1) targets above

/-- The edit distance of two texts. -/
def editDistance (source target : List Char) : Nat :=
  (source.foldl (nextRow target) (List.range (target.length + 1))).getLastD 0

end Phrasebook.Text
