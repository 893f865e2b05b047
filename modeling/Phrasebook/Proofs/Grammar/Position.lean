import Phrasebook.Proofs.Grammar.Placement

namespace Phrasebook.Syntax

open Text (IsBoundary byteLength)

namespace Position

section order

/-- An earlier line, or an earlier column of the same line. -/
def Precedes (first second : Position) : Prop :=
  first.line < second.line ∨ first.line = second.line ∧ first.column < second.column

variable {first second third : Position}

theorem Precedes.trans (one : first.Precedes second) (other : second.Precedes third) :
    first.Precedes third := by
  unfold Precedes at *
  omega

theorem not_precedes_self (position : Position) : ¬ position.Precedes position := by
  unfold Precedes
  omega

theorem Precedes.not_precedes (before : first.Precedes second) : ¬ second.Precedes first :=
  fun behind => not_precedes_self first (before.trans behind)

end order

section walks

/-- The position before the first character. -/
def start : Position := ⟨1, 1⟩

/-- The position behind a character: a line feed leads to the next line. -/
def next (here : Position) (c : Char) : Position :=
  if c = '\n' then ⟨here.line + 1, 1⟩ else ⟨here.line, here.column + 1⟩

/-- Walks on through a text until it is at a position, and gives the bytes that it passed. -/
def walk (target : Position) (here : Position) (text : List Char) : Option Nat :=
  if here = target then some 0
  else match text with
    | [] => none
    | c :: rest => (walk target (here.next c) rest).map (c.utf8Size + ·)

/-- The offset at a line and a column of a source. -/
def offset? (source : List Char) (target : Position) : Option Nat := walk target start source

private theorem precedes_next (here : Position) (c : Char) : here.Precedes (here.next c) := by
  unfold next Precedes
  split
  · exact .inl (Nat.lt_succ_self _)
  · exact .inr ⟨rfl, Nat.lt_succ_self _⟩

theorem after_concat (text : List Char) (c : Char) : after (text ++ [c]) = (after text).next c := by
  by_cases feed : c = '\n'
  · subst feed
    simp [after, next]
  · simp [after, next, feed]

theorem after_precedes (passed : List Char) {more : List Char} (nonempty : more ≠ []) :
    (after passed).Precedes (after (passed ++ more)) := by
  induction more generalizing passed with
  | nil => exact absurd rfl nonempty
  | cons c more ih =>
    have step : (after passed).Precedes (after (passed ++ [c])) := by
      rw [after_concat]
      exact precedes_next _ c
    by_cases last : more = []
    · subst last
      exact step
    · have further := ih (passed ++ [c]) last
      rw [List.append_assoc] at further
      exact step.trans further

/-- The induction is on the text between the walker and its target: as long as there is some, the two
positions differ. -/
theorem walk_after (passed before rest : List Char) :
    walk (after (passed ++ before)) (after passed) (before ++ rest) = some (byteLength before) := by
  induction before generalizing passed with
  | nil => rw [List.append_nil, walk.eq_def, if_pos rfl]; rfl
  | cons c before ih =>
    have apart : after passed ≠ after (passed ++ c :: before) := fun same =>
      not_precedes_self (after passed) (same ▸ after_precedes passed (List.cons_ne_nil c before))
    have further := ih (passed ++ [c])
    rw [List.append_assoc, after_concat] at further
    rw [walk.eq_def, if_neg apart]
    exact congrArg (Option.map (c.utf8Size + ·)) further

private theorem offset?_after (before rest : List Char) :
    offset? (before ++ rest) (after before) = some (byteLength before) :=
  walk_after [] before rest

end walks

section offsets

variable {source : List Char} {offset later : Nat}

theorem ofOffset_append (before rest : List Char) :
    ofOffset (before ++ rest) (byteLength before) = after before := by
  rw [ofOffset, Text.splitAtOffset?_append]
  rfl

theorem offset?_ofOffset (boundary : IsBoundary source offset) :
    offset? source (ofOffset source offset) = some offset := by
  obtain ⟨before, rest, rfl, rfl⟩ := boundary
  rw [ofOffset_append, offset?_after]

private theorem precedes_of_lt (boundary : IsBoundary source offset) (behind : IsBoundary source later)
    (less : offset < later) : (ofOffset source offset).Precedes (ofOffset source later) := by
  obtain ⟨before, rest, rfl, rfl⟩ := boundary
  obtain ⟨further, tail, same, rfl⟩ := behind
  rcases List.append_eq_append_iff.mp same with ⟨more, rfl, -⟩ | ⟨more, rfl, -⟩
  · have between : more ≠ [] := by
      rintro rfl
      simp at less
    rw [ofOffset_append, same, ofOffset_append]
    exact after_precedes before between
  · rw [Text.byteLength_append] at less
    omega

/-- Places between characters are in the order of their positions. -/
theorem lt_iff_precedes (boundary : IsBoundary source offset) (behind : IsBoundary source later) :
    offset < later ↔ (ofOffset source offset).Precedes (ofOffset source later) := by
  refine ⟨precedes_of_lt boundary behind, fun before => ?_⟩
  rcases Nat.lt_trichotomy offset later with less | rfl | greater
  · exact less
  · exact absurd before (not_precedes_self _)
  · exact absurd (precedes_of_lt behind boundary greater) before.not_precedes

end offsets

end Position

section errors

variable {source : List Char} {error other : Error}

/-- The line and the column of an error are coordinates of its start: the errors of a source are in the
order of their positions, and a walk to the position of one ends at the byte where it starts. -/
theorem position_faithful (first : error ∈ (parseTemplate source).2)
    (second : other ∈ (parseTemplate source).2) :
    (error.start < other.start ↔ (error.position source).Precedes (other.position source)) ∧
    Position.offset? source (error.position source) = some error.start := by
  have boundary : IsBoundary source error.start := ((placed_parseTemplate source).2 error first).starts
  have behind : IsBoundary source other.start := ((placed_parseTemplate source).2 other second).starts
  exact ⟨Position.lt_iff_precedes boundary behind, Position.offset?_ofOffset boundary⟩

/-- A call without a name behind a letter of two bytes, and a brace that is missing right behind a line
feed, where the source ends. -/
theorem position_faithful_newline :
    let source := "\x7bé\x7b:\x7d\n".toList
    let unnamed : Error := .emptyToken 5
    let unclosed : Error := .missingChar 7 '}'
    unnamed ∈ (parseTemplate source).2 ∧ unclosed ∈ (parseTemplate source).2 ∧
    unnamed.position source = ⟨1, 5⟩ ∧ unclosed.position source = ⟨2, 1⟩ ∧
    Position.Precedes ⟨1, 5⟩ ⟨2, 1⟩ ∧ Position.offset? source ⟨2, 1⟩ = some 7 := by
  intro source unnamed unclosed
  have first : unnamed ∈ (parseTemplate source).2 := by decide +kernel
  have second : unclosed ∈ (parseTemplate source).2 := by decide +kernel
  have here : unnamed.position source = ⟨1, 5⟩ := by decide +kernel
  have there : unclosed.position source = ⟨2, 1⟩ := by decide +kernel
  have less : unnamed.start < unclosed.start := by decide
  obtain ⟨ordered, -⟩ := position_faithful first second
  obtain ⟨-, back⟩ := position_faithful second first
  rw [here, there] at ordered
  rw [there] at back
  exact ⟨first, second, here, there, ordered.mp less, back⟩

end errors

end Phrasebook.Syntax
