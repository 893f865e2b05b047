import Phrasebook.Syntax.Error

/-!
What reading a stretch of source gives, and the repetition of a reading step. Reading never fails: it
gives a node for the best understanding of the source, and the errors on the way.
-/

namespace Phrasebook.Syntax

open Text (Cursor)
open Text.Cursor (Reaches Advances)

/-- A node, the errors found while it was read, and the place after it. -/
structure Reading (α : Type) where
  value : α
  errors : List Error
  next : Cursor
  deriving DecidableEq, Repr

namespace Reading

def map (f : α → β) (reading : Reading α) : Reading β :=
  { reading with value := f reading.value }

@[simp] theorem map_value (f : α → β) (reading : Reading α) :
    (reading.map f).value = f reading.value := rfl

@[simp] theorem map_errors (f : α → β) (reading : Reading α) :
    (reading.map f).errors = reading.errors := rfl

@[simp] theorem map_next (f : α → β) (reading : Reading α) :
    (reading.map f).next = reading.next := rfl

end Reading

/-- A required character: it is passed, or its absence is an error. -/
def expect (c : Char) (here : Cursor) : Reading Unit :=
  if here.isAt c then ⟨(), [], here.advance⟩ else ⟨(), [.missingChar here.offset c], here⟩

theorem reaches_expect (c : Char) (here : Cursor) : Reaches here (expect c here).next := by
  unfold expect
  split
  · exact Text.Cursor.reaches_advance here
  · exact Reaches.refl here

/-- A step that may find nothing to read. -/
abbrev Step (α : Type) := Cursor → Option (Reading α)

/-- What a step reads is never empty. -/
def Step.Progresses (step : Step α) : Prop :=
  ∀ here reading, step here = some reading → Advances here reading.next

/-- Repeats a step until it finds nothing. -/
def many (step : Step α) (progresses : step.Progresses) (here : Cursor) : Reading (List α) :=
  match _found : step here with
  | none => ⟨[], [], here⟩
  | some first =>
    let more := many step progresses first.next
    ⟨first.value :: more.value, first.errors ++ more.errors, more.next⟩
termination_by here.rest.length
decreasing_by exact (progresses here first ‹_›).2

section many

variable {step : Step α} (progresses : step.Progresses)

theorem many_of_none {here : Cursor} (nothing : step here = none) :
    many step progresses here = ⟨[], [], here⟩ := by
  rw [many]; split
  · rfl
  · next found => rw [nothing] at found; cases found

theorem many_of_some {here : Cursor} {first : Reading α} (found : step here = some first) :
    many step progresses here =
      ⟨first.value :: (many step progresses first.next).value,
        first.errors ++ (many step progresses first.next).errors,
        (many step progresses first.next).next⟩ := by
  rw [many]; split
  · next nothing => rw [nothing] at found; cases found
  · next other same => rw [found] at same; cases same; rfl

theorem reaches_many (here : Cursor) : Reaches here (many step progresses here).next := by
  fun_induction many step progresses here with
  | case1 here nothing => exact Reaches.refl here
  | case2 here first found more ih => exact (progresses here first found).1.trans ih

/-- A repetition goes on until its step finds nothing. -/
theorem many_stops (here : Cursor) : step (many step progresses here).next = none := by
  fun_induction many step progresses here with
  | case1 here nothing => exact nothing
  | case2 here first found more ih => exact ih

end many

end Phrasebook.Syntax
