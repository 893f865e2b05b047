import Mathlib.Order.Bounds.Basic
import Phrasebook.Text.Distance

/-!
The edit distance of two texts is the least number of edits, of one character each, that make the one
of the other. The rows of the table are read backwards here: an entry stands for a prefix of the source
and one of the target, and a prefix grows at its end.
-/

namespace Phrasebook.Text

section edits

/-- One character is inserted, deleted or replaced. -/
inductive Edit : List Char → List Char → Prop
  | insert (before after : List Char) (c : Char) : Edit (before ++ after) (before ++ c :: after)
  | delete (before after : List Char) (c : Char) : Edit (before ++ c :: after) (before ++ after)
  | replace (before after : List Char) (c d : Char) :
      Edit (before ++ c :: after) (before ++ d :: after)

/-- One text is made of another by so many edits in a row. -/
inductive Edits : Nat → List Char → List Char → Prop
  | none : Edits 0 text text
  | step (edit : Edit source text) (rest : Edits count text target) : Edits (count + 1) source target

variable {source target : List Char} {count : Nat}

theorem Edit.cons (edit : Edit source target) (c : Char) : Edit (c :: source) (c :: target) := by
  cases edit with
  | insert before after d => exact .insert (c :: before) after d
  | delete before after d => exact .delete (c :: before) after d
  | replace before after d e => exact .replace (c :: before) after d e

theorem Edit.reverse (edit : Edit source target) : Edit source.reverse target.reverse := by
  cases edit with
  | insert before after c => simpa using Edit.insert after.reverse before.reverse c
  | delete before after c => simpa using Edit.delete after.reverse before.reverse c
  | replace before after c d => simpa using Edit.replace after.reverse before.reverse c d

theorem Edits.cons (edits : Edits count source target) (c : Char) :
    Edits count (c :: source) (c :: target) := by
  induction edits with
  | none => exact .none
  | step edit rest ih => exact .step (edit.cons c) ih

theorem Edits.reverse (edits : Edits count source target) :
    Edits count source.reverse target.reverse := by
  induction edits with
  | none => exact .none
  | step edit rest ih => exact .step edit.reverse ih

end edits

section front

/-- The edit distance by what happens at the front: the first character of the source is deleted, that
of the target is inserted, or the one becomes the other. -/
def frontDistance : List Char → List Char → Nat
  | [], target => target.length
  | _ :: source, [] => source.length + 1
  | c :: source, d :: target =>
    min (min (frontDistance source (d :: target) + 1) (frontDistance (c :: source) target + 1))
      (if c = d then frontDistance source target else frontDistance source target + 1)

theorem frontDistance_nil_left (target : List Char) : frontDistance [] target = target.length := by
  rw [frontDistance]

theorem frontDistance_nil_right (source : List Char) : frontDistance source [] = source.length := by
  cases source with
  | nil => exact frontDistance_nil_left []
  | cons c source => rw [frontDistance, List.length_cons]

theorem frontDistance_cases (c d : Char) (source target : List Char) :
    frontDistance (c :: source) (d :: target) = frontDistance source (d :: target) + 1 ∨
    frontDistance (c :: source) (d :: target) = frontDistance (c :: source) target + 1 ∨
    frontDistance (c :: source) (d :: target) = frontDistance source target + 1 ∨
    (c = d ∧ frontDistance (c :: source) (d :: target) = frontDistance source target) := by
  rw [frontDistance]
  by_cases same : c = d
  · simp only [same, true_and, ↓reduceIte]
    omega
  · simp only [same, false_and, ↓reduceIte]
    omega

theorem frontDistance_delete (c : Char) (source target : List Char) :
    frontDistance (c :: source) target ≤ frontDistance source target + 1 := by
  cases target with
  | nil => simp [frontDistance_nil_right]
  | cons d target => rw [frontDistance]; omega

theorem frontDistance_insert (d : Char) (source target : List Char) :
    frontDistance source (d :: target) ≤ frontDistance source target + 1 := by
  cases source with
  | nil => simp [frontDistance_nil_left]
  | cons c source => rw [frontDistance]; omega

theorem frontDistance_replace (c d : Char) (source target : List Char) :
    frontDistance (c :: source) (d :: target) ≤ frontDistance source target + 1 := by
  rw [frontDistance]
  split <;> omega

theorem frontDistance_keep (c : Char) (source target : List Char) :
    frontDistance (c :: source) (c :: target) ≤ frontDistance source target := by
  rw [frontDistance, if_pos rfl]
  omega

/-- So many edits are enough. The cases are those of the recursion. -/
theorem edits_frontDistance (source target : List Char) :
    Edits (frontDistance source target) source target := by
  have inserted {count : Nat} {source target : List Char} (d : Char)
      (rest : Edits count source target) : Edits (count + 1) source (d :: target) :=
    .step (.insert [] source d) (rest.cons d)
  induction source generalizing target with
  | nil =>
    rw [frontDistance_nil_left]
    induction target with
    | nil => exact .none
    | cons d target ih => exact inserted d ih
  | cons c source ih =>
    induction target with
    | nil =>
      have rest := ih []
      rw [frontDistance_nil_right] at rest ⊢
      exact .step (.delete [] source c) rest
    | cons d target more =>
      rcases frontDistance_cases c d source target with same | same | same | ⟨rfl, same⟩
      all_goals rw [same]
      · exact .step (.delete [] source c) (ih (d :: target))
      · exact inserted d more
      · exact .step (.replace [] source c d) ((ih target).cons d)
      · exact (ih target).cons c

end front

section bounds

variable {source other : List Char}

private theorem frontDistance_cons_le
    (near : ∀ target, frontDistance source target ≤ frontDistance other target + 1) (c : Char)
    (target : List Char) :
    frontDistance (c :: source) target ≤ frontDistance (c :: other) target + 1 := by
  induction target with
  | nil =>
    have lengths := near []
    simp only [frontDistance_nil_right, List.length_cons] at lengths ⊢
    omega
  | cons d target ih =>
    have deleted := frontDistance_delete c source (d :: target)
    have inserted := frontDistance_insert d (c :: source) target
    have replaced := frontDistance_replace c d source target
    have whole := near (d :: target)
    have rest := near target
    rcases frontDistance_cases c d other target with same | same | same | ⟨rfl, same⟩
    · omega
    · omega
    · omega
    · have kept := frontDistance_keep c source target
      omega

/-- One more character in the source is at most one more edit fewer. -/
theorem frontDistance_le_cons (c : Char) (source target : List Char) :
    frontDistance source target ≤ frontDistance (c :: source) target + 1 := by
  induction target with
  | nil =>
    simp only [frontDistance_nil_right, List.length_cons]
    omega
  | cons d target ih =>
    have inserted := frontDistance_insert d source target
    rcases frontDistance_cases c d source target with same | same | same | ⟨rfl, same⟩
    all_goals omega

private theorem frontDistance_cons_le_cons (c e : Char) (source target : List Char) :
    frontDistance (c :: source) target ≤ frontDistance (e :: source) target + 1 := by
  induction target with
  | nil => simp [frontDistance_nil_right]
  | cons d target ih =>
    have deleted := frontDistance_delete c source (d :: target)
    have inserted := frontDistance_insert d (c :: source) target
    have replaced := frontDistance_replace c d source target
    rcases frontDistance_cases e d source target with same | same | same | ⟨rfl, same⟩
    all_goals omega

private theorem frontDistance_append_le
    (near : ∀ target, frontDistance source target ≤ frontDistance other target + 1)
    (before target : List Char) :
    frontDistance (before ++ source) target ≤ frontDistance (before ++ other) target + 1 := by
  induction before generalizing target with
  | nil => exact near target
  | cons c before ih => exact frontDistance_cons_le ih c target

private theorem Edit.frontDistance_le (edit : Edit source other) (target : List Char) :
    frontDistance source target ≤ frontDistance other target + 1 := by
  cases edit with
  | insert before after c =>
    exact frontDistance_append_le (frontDistance_le_cons c after) before target
  | delete before after c =>
    exact frontDistance_append_le (frontDistance_delete c after) before target
  | replace before after c d =>
    exact frontDistance_append_le (frontDistance_cons_le_cons c d after) before target

private theorem frontDistance_self (text : List Char) : frontDistance text text = 0 := by
  induction text with
  | nil => exact frontDistance_nil_left []
  | cons c text ih =>
    have kept := frontDistance_keep c text text
    omega

/-- Fewer edits are not enough. -/
theorem Edits.frontDistance_le {target : List Char} {count : Nat}
    (edits : Edits count source target) : frontDistance source target ≤ count := by
  induction edits with
  | none => exact Nat.le_of_eq (frontDistance_self _)
  | step edit rest ih => exact Nat.le_trans (edit.frontDistance_le _) (Nat.succ_le_succ ih)

end bounds

section table

/-- The entries of a row behind the one for a prefix of the target. The source and that prefix are read
backwards. -/
def rowBehind (source : List Char) : List Char → List Char → List Nat
  | _, [] => []
  | passed, d :: rest => frontDistance source (d :: passed) :: rowBehind source (d :: passed) rest

private theorem extendRow_eq (c : Char) (source passed rest : List Char) :
    extendRow c (frontDistance source passed) (frontDistance (c :: source) passed) rest
        (rowBehind source passed rest) = rowBehind (c :: source) passed rest := by
  induction rest generalizing passed with
  | nil => rfl
  | cons d rest ih =>
    have entry : frontDistance (c :: source) (d :: passed) =
        min (min (frontDistance source (d :: passed) + 1) (frontDistance (c :: source) passed + 1))
          (if c = d then frontDistance source passed else frontDistance source passed + 1) := by
      rw [frontDistance]
    simp only [rowBehind, extendRow, ← entry, ih]

/-- The whole row for a source. -/
def rowOf (source target : List Char) : List Nat := source.length :: rowBehind source [] target

private theorem nextRow_rowOf (c : Char) (source target : List Char) :
    nextRow target (rowOf source target) c = rowOf (c :: source) target := by
  have extended := extendRow_eq c source [] target
  rw [frontDistance_nil_right, frontDistance_nil_right] at extended
  exact congrArg ((source.length + 1) :: ·) extended

private theorem foldl_nextRow (source passed target : List Char) :
    source.foldl (nextRow target) (rowOf passed target) = rowOf (source.reverse ++ passed) target := by
  induction source generalizing passed with
  | nil => rfl
  | cons c source ih =>
    rw [List.foldl_cons, nextRow_rowOf, ih, List.reverse_cons, List.append_assoc]
    rfl

private theorem rowBehind_nil (passed rest : List Char) :
    rowBehind [] passed rest = List.range' (passed.length + 1) rest.length := by
  induction rest generalizing passed with
  | nil => rfl
  | cons d rest ih =>
    rw [rowBehind, ih, frontDistance_nil_left]
    rfl

private theorem rowOf_nil (target : List Char) : rowOf [] target = List.range (target.length + 1) := by
  rw [rowOf, rowBehind_nil, List.range_eq_range', List.range'_succ]
  rfl

private theorem getLastD_rowBehind (source passed rest : List Char) :
    (rowBehind source passed rest).getLastD (frontDistance source passed) =
      frontDistance source (rest.reverse ++ passed) := by
  induction rest generalizing passed with
  | nil => rfl
  | cons d rest ih =>
    rw [rowBehind, List.getLastD_cons, ih, List.reverse_cons, List.append_assoc]
    rfl

theorem editDistance_eq (source target : List Char) :
    editDistance source target = frontDistance source.reverse target.reverse := by
  have last := getLastD_rowBehind source.reverse [] target
  rw [frontDistance_nil_right, List.append_nil] at last
  rw [editDistance, ← rowOf_nil, foldl_nextRow, List.append_nil, rowOf, List.getLastD_cons, last]

/-- A distance of texts that gives the least number of edits. -/
def CountsEdits (distance : List Char → List Char → Nat) : Prop :=
  ∀ source target, IsLeast {count | Edits count source target} (distance source target)

theorem editDistance_countsEdits : CountsEdits editDistance := by
  intro source target
  rw [editDistance_eq]
  constructor
  · simpa using (edits_frontDistance source.reverse target.reverse).reverse
  · intro count edits
    exact edits.reverse.frontDistance_le

theorem CountsEdits.eq_editDistance {distance : List Char → List Char → Nat}
    (counts : CountsEdits distance) : distance = editDistance := by
  funext source target
  exact (counts source target).unique (editDistance_countsEdits source target)

end table

end Phrasebook.Text
