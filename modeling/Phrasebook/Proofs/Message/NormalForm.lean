import Mathlib.Data.List.ReduceOption
import Phrasebook.Proofs.Grammar.WellFormed

namespace Phrasebook

section runs

/-- The metadata of literals that become one: those of their bags that there are, merged in order. -/
def joinedMetadata (bags : List (Option Metadata)) : Option Metadata :=
  match bags.reduceOption with
  | [] => none
  | first :: rest => some (rest.foldl Metadata.merge first)

private theorem joinedMetadata_cons (bag : Option Metadata) (bags : List (Option Metadata)) :
    joinedMetadata (bag :: bags) = Metadata.mergeOptional bag (joinedMetadata bags) := by
  cases bag with
  | none => rfl
  | some bag =>
    unfold joinedMetadata
    rw [List.reduceOption_cons_of_some]
    cases bags.reduceOption with
    | nil => rfl
    | cons first rest => exact congrArg some List.foldl_assoc

/-- A literal from its text and its metadata. -/
def Part.ofText (entry : String × Option Metadata) : Part := .literal entry.1 entry.2

/-- The literal that a run of literals becomes: their texts one after the other. -/
def Part.joined (run : List (String × Option Metadata)) : Part :=
  .literal (String.join (run.map Prod.fst)) (joinedMetadata (run.map Prod.snd))

theorem Part.joined_cons (entry : String × Option Metadata) (run : List (String × Option Metadata)) :
    joined (entry :: run) = .literal (entry.1 ++ String.join (run.map Prod.fst))
      (Metadata.mergeOptional entry.2 (joinedMetadata (run.map Prod.snd))) := by
  rw [joined, List.map_cons, List.map_cons, String.join_cons, joinedMetadata_cons]

theorem Part.joined_singleton (entry : String × Option Metadata) : joined [entry] = ofText entry := by
  rw [joined_cons, List.map_nil, String.join_nil, String.append_empty]
  exact congrArg _ (Metadata.mergeOptional_none entry.2)

/-- The longest runs of literals are made one literal each, and the other parts are kept. -/
inductive Merges : List Part → List Part → Prop where
  | nil : Merges [] []
  | other (part : Part) (apart : part.isLiteral = false) (rest : Merges parts merged) :
      Merges (part :: parts) (part :: merged)
  | run (run : List (String × Option Metadata)) (nonempty : run ≠ [])
      (longest : ∀ part ∈ parts.head?, part.isLiteral = false) (rest : Merges parts merged) :
      Merges (run.map Part.ofText ++ parts) (Part.joined run :: merged)

end runs

namespace Pattern

section merging

variable {parts merged : List Part} {part : Part}

theorem prepend_of_not_isLiteral (other : part.isLiteral = false) (parts : List Part) :
    prepend part parts = part :: parts := by
  cases part with
  | literal => cases other
  | _ => rfl

theorem prepend_literal_of_head (entry : String × Option Metadata)
    (longest : ∀ part ∈ parts.head?, part.isLiteral = false) :
    prepend (.ofText entry) parts = .ofText entry :: parts := by
  cases parts with
  | nil => rfl
  | cons next rest =>
    cases next with
    | literal => cases longest _ rfl
    | _ => rfl

private theorem head?_mergeLiterals (longest : ∀ part ∈ parts.head?, part.isLiteral = false) :
    (mergeLiterals parts).head? = parts.head? := by
  cases parts with
  | nil => rfl
  | cons part rest => rw [mergeLiterals_cons, prepend_of_not_isLiteral (longest part rfl)]; rfl

private theorem mergeLiterals_run {run : List (String × Option Metadata)} (nonempty : run ≠ [])
    (longest : ∀ part ∈ parts.head?, part.isLiteral = false) :
    mergeLiterals (run.map Part.ofText ++ parts) = Part.joined run :: mergeLiterals parts := by
  induction run with
  | nil => exact absurd rfl nonempty
  | cons entry run ih =>
    rw [List.map_cons, List.cons_append, mergeLiterals_cons]
    by_cases last : run = []
    · subst last
      rw [Part.joined_singleton]
      exact prepend_literal_of_head entry (head?_mergeLiterals longest ▸ longest)
    · rw [ih last, Part.joined_cons]
      rfl

private theorem eq_of_merges (merges : Merges parts merged) : mergeLiterals parts = merged := by
  induction merges with
  | nil => rfl
  | other part apart rest ih => rw [mergeLiterals_cons, ih, prepend_of_not_isLiteral apart]
  | run run nonempty longest rest ih => rw [mergeLiterals_run nonempty longest, ih]

/-- A part in front begins a run, lengthens the first one, or stands alone. -/
theorem merges_prepend (merges : Merges parts merged) (part : Part) :
    Merges (part :: parts) (prepend part merged) := by
  cases literal : part.isLiteral with
  | false =>
    rw [prepend_of_not_isLiteral literal]
    exact .other part literal merges
  | true =>
    obtain ⟨entry, rfl⟩ : ∃ entry, part = .ofText entry := by
      cases part with
      | literal text bag => exact ⟨(text, bag), rfl⟩
      | _ => cases literal
    have alone {parts merged : List Part} (rest : Merges parts merged)
        (longest : ∀ part ∈ parts.head?, part.isLiteral = false) :
        Merges (.ofText entry :: parts) (.ofText entry :: merged) := by
      have single := Merges.run [entry] (List.cons_ne_nil _ _) longest rest
      rw [Part.joined_singleton] at single
      exact single
    cases merges with
    | nil => exact alone .nil (by simp)
    | other next apart rest =>
      rw [prepend_literal_of_head entry (by simpa using apart)]
      exact alone (.other next apart rest) (by simpa using apart)
    | run run nonempty longest rest =>
      have whole := Merges.run (entry :: run) (List.cons_ne_nil _ _) longest rest
      rwa [Part.joined_cons] at whole

theorem merges_iff : Merges parts merged ↔ mergeLiterals parts = merged := by
  refine ⟨eq_of_merges, ?_⟩
  rintro rfl
  induction parts with
  | nil => exact .nil
  | cons part parts ih =>
    rw [mergeLiterals_cons]
    exact merges_prepend ih part

end merging

section appending

variable (parts others : List Part) (part : Part)

private theorem mergeLiterals_prepend_append :
    mergeLiterals (prepend part parts ++ others) = prepend part (mergeLiterals (parts ++ others)) := by
  fun_cases prepend part parts with
  | case1 text bag text' bag' rest =>
    rw [List.cons_append, List.cons_append, mergeLiterals_cons, mergeLiterals_cons, prepend_prepend]
  | case2 => rw [List.cons_append, mergeLiterals_cons]

theorem mergeLiterals_append_left :
    mergeLiterals (mergeLiterals parts ++ others) = mergeLiterals (parts ++ others) := by
  induction parts with
  | nil => rfl
  | cons part parts ih =>
    rw [mergeLiterals_cons, mergeLiterals_prepend_append, ih, List.cons_append, mergeLiterals_cons]

theorem mergeLiterals_mergeLiterals : mergeLiterals (mergeLiterals parts) = mergeLiterals parts := by
  simpa only [List.append_nil] using mergeLiterals_append_left parts []

private theorem mergeLiterals_append_right :
    mergeLiterals (parts ++ mergeLiterals others) = mergeLiterals (parts ++ others) := by
  induction parts with
  | nil => exact mergeLiterals_mergeLiterals others
  | cons part parts ih =>
    rw [List.cons_append, List.cons_append, mergeLiterals_cons, mergeLiterals_cons, ih]

private theorem filter_prepend :
    (prepend part parts).filter (fun part => !part.isLiteral) =
      (part :: parts).filter fun part => !part.isLiteral := by
  fun_cases prepend part parts <;> rfl

private theorem filter_mergeLiterals :
    (mergeLiterals parts).filter (fun part => !part.isLiteral) =
      parts.filter fun part => !part.isLiteral := by
  induction parts with
  | nil => rfl
  | cons part parts ih => rw [mergeLiterals_cons, filter_prepend, List.filter_cons, ih, List.filter_cons]

/-- A pattern is the normal form of its parts. No two literals are adjacent in it; making a pattern of
its parts gives it again; a list may be cut anywhere, and each side made a pattern first. Every longest
run of literals is one literal with the texts in order, and without metadata exactly if none of them
has any, else with their bags merged in order. All other parts stay, in order. -/
theorem ofParts_normalForm (parts others : List Part) :
    (ofParts parts).parts.IsChain Part.Apart ∧
    ofParts (ofParts parts).parts = ofParts parts ∧
    ofParts (parts ++ others) = ofParts ((ofParts parts).parts ++ (ofParts others).parts) ∧
    (∀ merged, (ofParts parts).parts = merged ↔ Merges parts merged) ∧
    (ofParts parts).parts.filter (fun part => !part.isLiteral) =
      parts.filter fun part => !part.isLiteral := by
  refine ⟨isChain_parts _, ?_, ?_, fun merged => merges_iff.symm, filter_mergeLiterals parts⟩
  · exact Pattern.ext (mergeLiterals_mergeLiterals parts)
  · have cut : mergeLiterals (mergeLiterals parts ++ mergeLiterals others) =
        mergeLiterals (parts ++ others) :=
      (mergeLiterals_append_left parts _).trans (mergeLiterals_append_right parts others)
    exact Pattern.ext cut.symm

end appending

end Pattern

end Phrasebook
