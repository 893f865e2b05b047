import Phrasebook.Message.Part

namespace Phrasebook

/-- Two parts that may stand side by side. -/
def Part.Apart (part next : Part) : Prop := ¬(part.isLiteral ∧ next.isLiteral)

/-- Every two parts that stand side by side may. -/
def Part.AllApart : List Part → Prop
  | part :: next :: rest => part.Apart next ∧ AllApart (next :: rest)
  | _ => True

theorem Part.AllApart.map {change : Part → Part} {parts : List Part} (apart : AllApart parts)
    (keeps : ∀ part, (change part).isLiteral = part.isLiteral) : AllApart (parts.map change) := by
  fun_induction AllApart parts with
  | case1 part next rest ih =>
    obtain ⟨first, others⟩ := apart
    refine ⟨?_, ih others⟩
    rwa [Apart, keeps, keeps]
  | case2 parts few =>
    cases parts with
    | nil => trivial
    | cons part rest =>
      cases rest with
      | nil => trivial
      | cons next rest => exact absurd rfl (few part next rest)

/-- A sequence of parts in which no two literals are adjacent. -/
@[ext]
structure Pattern where
  parts : List Part
  apart : Part.AllApart parts

namespace Pattern

/-- Puts a part behind others. A literal behind a literal becomes one with it: texts in order, and the
metadata of the first before that of the second. -/
def append : List Part → Part → List Part
  | [], part => [part]
  | [.literal text bag], .literal text' bag' =>
    [.literal (text ++ text') (Metadata.mergeOptional bag bag')]
  | first :: rest, part => first :: append rest part

/-- Makes every run of adjacent literals one literal. -/
def mergeLiterals (parts : List Part) : List Part := parts.foldl append []

/-- Puts a part in front of others. A literal in front of a literal becomes one with it. -/
def prepend : Part → List Part → List Part
  | .literal text bag, .literal text' bag' :: rest =>
    .literal (text ++ text') (Metadata.mergeOptional bag bag') :: rest
  | part, rest => part :: rest

section ends

variable {part first last : Part} {parts : List Part}

theorem append_cons (more : parts ≠ []) : append (first :: parts) last = first :: append parts last := by
  cases parts with
  | nil => exact absurd rfl more
  | cons => rw [append]; simp

theorem append_singleton (apart : first.Apart last) : append [first] last = [first, last] := by
  cases first with
  | literal text bag =>
    cases last with
    | literal => exact absurd ⟨rfl, rfl⟩ apart
    | _ => rfl
  | _ => rfl

theorem prepend_cons (apart : part.Apart first) :
    prepend part (first :: parts) = part :: first :: parts := by
  cases part with
  | literal text bag =>
    cases first with
    | literal => exact absurd ⟨rfl, rfl⟩ apart
    | _ => rfl
  | _ => rfl

/-- What is put in front makes no difference to what is put behind. -/
theorem append_prepend (part last : Part) (parts : List Part) :
    append (prepend part parts) last = prepend part (append parts last) := by
  cases parts with
  | nil => cases part <;> cases last <;> rfl
  | cons first rest =>
    by_cases joins : part.Apart first
    · rw [prepend_cons joins, append_cons (List.cons_ne_nil _ _)]
      cases rest with
      | nil =>
        by_cases adjacent : first.Apart last
        · rw [append_singleton adjacent, prepend_cons joins]
        · cases first with
          | literal =>
            cases last with
            | literal =>
              have apart (text : String) (bag : Option Metadata) : part.Apart (.literal text bag) := joins
              exact (prepend_cons (apart _ _)).symm
            | _ => exact absurd nofun adjacent
          | _ => exact absurd nofun adjacent
      | cons => rw [append_cons (List.cons_ne_nil _ _), prepend_cons joins]
    · cases part with
      | literal text bag =>
        cases first with
        | literal text' bag' =>
          cases rest with
          | nil => cases last <;> simp [prepend, append, String.append_assoc, Metadata.mergeOptional_assoc]
          | cons => simp only [prepend, append_cons (List.cons_ne_nil _ _)]
        | _ => exact absurd nofun joins
      | _ => exact absurd nofun joins

end ends

/-- The runs may be joined from their ends as well. -/
@[simp] theorem mergeLiterals_cons (part : Part) (parts : List Part) :
    mergeLiterals (part :: parts) = prepend part (mergeLiterals parts) := by
  have behind (merged : List Part) :
      parts.foldl append (prepend part merged) = prepend part (parts.foldl append merged) := by
    induction parts generalizing merged with
    | nil => rfl
    | cons last parts ih => rw [List.foldl_cons, append_prepend, ih, List.foldl_cons]
  cases part <;> exact behind []

/-- Putting a part in front keeps literals apart. -/
theorem apart_prepend (part : Part) {parts : List Part} (apart : Part.AllApart parts) :
    Part.AllApart (prepend part parts) := by
  cases parts with
  | nil => cases part <;> trivial
  | cons first rest =>
    by_cases joins : part.isLiteral ∧ first.isLiteral
    · cases part with
      | literal text bag =>
        cases first with
        | literal text' bag' => cases rest <;> exact apart
        | _ => cases joins.2
      | _ => cases joins.1
    · rw [prepend_cons joins]
      exact ⟨joins, apart⟩

theorem apart_mergeLiterals (parts : List Part) : Part.AllApart (mergeLiterals parts) := by
  induction parts with
  | nil => trivial
  | cons part parts ih =>
    rw [mergeLiterals_cons]
    exact apart_prepend part ih

/-- The pattern of a list of parts. -/
def ofParts (parts : List Part) : Pattern := ⟨mergeLiterals parts, apart_mergeLiterals parts⟩

def isEmpty (pattern : Pattern) : Bool := pattern.parts.isEmpty

instance : Inhabited Pattern := ⟨⟨[], trivial⟩⟩

/-- Of two literals put in front, it does not matter whether they are joined first. -/
theorem prepend_prepend (text text' : String) (bag bag' : Option Metadata) (parts : List Part) :
    prepend (.literal text bag) (prepend (.literal text' bag') parts) =
      prepend (.literal (text ++ text') (Metadata.mergeOptional bag bag')) parts := by
  cases parts with
  | nil => rfl
  | cons part parts =>
    cases part with
    | literal => simp only [prepend, String.append_assoc, Metadata.mergeOptional_assoc]
    | _ => rfl

section members

variable {holds : Part → Prop}
  (join : ∀ {text bag text' bag'}, holds (.literal text bag) → holds (.literal text' bag') →
    holds (.literal (text ++ text') (Metadata.mergeOptional bag bag')))

include join

theorem forall_mem_prepend {part : Part} {parts : List Part} (first : holds part)
    (rest : ∀ part ∈ parts, holds part) : ∀ merged ∈ prepend part parts, holds merged := by
  fun_cases prepend part parts with
  | case1 text bag text' bag' later =>
    obtain ⟨next, later⟩ := List.forall_mem_cons.mp rest
    exact List.forall_mem_cons.mpr ⟨join first next, later⟩
  | case2 => exact List.forall_mem_cons.mpr ⟨first, rest⟩

/-- What holds of every part, and of two literals joined if it holds of both, holds of every part
after merging. -/
theorem forall_mem_mergeLiterals {parts : List Part} (each : ∀ part ∈ parts, holds part) :
    ∀ part ∈ mergeLiterals parts, holds part := by
  induction parts with
  | nil => exact each
  | cons part parts ih =>
    obtain ⟨first, rest⟩ := List.forall_mem_cons.mp each
    rw [mergeLiterals_cons]
    exact forall_mem_prepend join first (ih rest)

end members

end Pattern

end Phrasebook
