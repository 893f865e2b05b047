import Phrasebook.Proofs.Text.Distance
import Phrasebook.Suggestion

namespace Phrasebook

namespace Suggestion

/-- How many edits a known name is away from another name. -/
def distance (name other : String) : Nat := Text.editDistance name.toList other.toList

/-- The first of two known names is at least as good for a name: it is nearer, or as near as the second
and not greater. -/
def AtLeastAsGood (name first second : String) : Prop :=
  distance name first < distance name second ∨
    distance name first = distance name second ∧ first ≤ second

variable {name first second : String}

private theorem before_iff :
    before (distance name first, first) (distance name second, second) = true ↔
      AtLeastAsGood name first second := by
  simp [before, AtLeastAsGood]

private theorem AtLeastAsGood.antisymm (there : AtLeastAsGood name first second)
    (back : AtLeastAsGood name second first) : first = second := by
  rcases there with nearer | ⟨same, below⟩
  · rcases back with further | ⟨same, -⟩
    all_goals omega
  · rcases back with further | ⟨-, above⟩
    · omega
    · exact String.le_antisymm below above

private theorem before_trans (one two three : Nat × String) (start : before one two = true)
    (rest : before two three = true) : before one three = true := by
  simp only [before, Bool.or_eq_true, Bool.and_eq_true, decide_eq_true_eq, beq_iff_eq] at *
  rcases start with nearer | ⟨same, below⟩
  · left
    omega
  · rcases rest with nearer | ⟨also, above⟩
    · left
      omega
    · exact .inr ⟨same.trans also, String.le_trans below above⟩

private theorem before_total (one two : Nat × String) : (before one two || before two one) = true := by
  simp only [before, Bool.or_eq_true, Bool.and_eq_true, decide_eq_true_eq, beq_iff_eq]
  rcases Nat.lt_trichotomy one.1 two.1 with nearer | same | further
  · exact .inl (.inl nearer)
  · exact (String.le_total one.2 two.2).imp (fun below => .inr ⟨same, below⟩)
      fun below => .inr ⟨same.symm, below⟩
  · exact .inr (.inl further)

/-- The names that are within the tolerance, in some order. -/
def close (name : String) (available : List String) : List String :=
  available.filter fun other => distance name other ≤ tolerance name

/-- Suggestions are the first ones of the close names, and these are sorted from the best one on. -/
private theorem exists_sorted (name : String) (available : List String) :
    ∃ sorted : List String, sorted.Perm (close name available) ∧
      sorted.Pairwise (AtLeastAsGood name) ∧ suggestions Text.editDistance name available = sorted.take 3 := by
  let scored := available.map fun other => (distance name other, other)
  let near := scored.filter fun candidate => candidate.1 ≤ tolerance name
  have names : near.map Prod.snd = close name available := by
    simp [near, scored, close, List.filter_map, Function.comp_def]
  have scores (candidate) (member : candidate ∈ near.mergeSort before) :
      candidate = (distance name candidate.2, candidate.2) := by
    obtain ⟨listed, -⟩ := List.mem_filter.mp (List.mem_mergeSort.mp member)
    obtain ⟨other, -, rfl⟩ := List.mem_map.mp listed
    rfl
  refine ⟨(near.mergeSort before).map Prod.snd, ?_, ?_, ?_⟩
  · exact names ▸ (List.mergeSort_perm near before).map Prod.snd
  · refine List.pairwise_map.mpr ((List.pairwise_mergeSort before_trans before_total near).imp_of_mem ?_)
    intro one two member other ordered
    rw [scores one member, scores two other] at ordered
    exact before_iff.mp ordered
  · exact List.map_take

end Suggestion

open Suggestion (distance tolerance close AtLeastAsGood)

/-- Up to three names are suggested, each of them few enough edits away, where names of up to three
characters allow for fewer edits, and the better ones come first. Every other one of the available
names is too many edits away, or there are three suggestions, each of which is at least as good. The
order in which the names are available makes no difference. -/
theorem suggestions_best {measure : List Char → List Char → Nat} (counts : Text.CountsEdits measure)
    (name : String) (available : List String) :
    (∀ other, IsLeast {count | Text.Edits count name.toList other.toList} (distance name other)) ∧
    (suggestions measure name available).length ≤ 3 ∧
    (∀ other ∈ suggestions measure name available,
      distance name other ≤ if 3 < name.length then 2 else 1) ∧
    (suggestions measure name available).Pairwise (AtLeastAsGood name) ∧
    (∃ leftOut, available.Perm (suggestions measure name available ++ leftOut) ∧
      ∀ other ∈ leftOut, (if 3 < name.length then 2 else 1) < distance name other ∨
        (suggestions measure name available).length = 3 ∧
          ∀ chosen ∈ suggestions measure name available, AtLeastAsGood name chosen other) ∧
    ∀ permuted, available.Perm permuted →
      suggestions measure name permuted = suggestions measure name available := by
  obtain rfl := counts.eq_editDistance
  have allowed : (if 3 < name.length then 2 else 1) = tolerance name := by
    rw [tolerance, String.length_toList]
  obtain ⟨sorted, all, ordered, taken⟩ := Suggestion.exists_sorted name available
  rw [allowed, taken]
  have halves : (sorted.take 3 ++ sorted.drop 3).Pairwise (AtLeastAsGood name) := by
    rwa [List.take_append_drop]
  obtain ⟨front, -, across⟩ := List.pairwise_append.mp halves
  refine ⟨fun other => Text.editDistance_countsEdits _ _, List.length_take_le 3 sorted, ?_, front, ?_, ?_⟩
  · intro other member
    have near := List.mem_filter.mp (all.subset (List.mem_of_mem_take member))
    exact of_decide_eq_true near.2
  · let far := available.filter fun other => !decide (distance name other ≤ tolerance name)
    refine ⟨sorted.drop 3 ++ far, ?_, ?_⟩
    · have parts : (close name available ++ far).Perm available := List.filter_append_perm _ available
      rw [← List.append_assoc, List.take_append_drop]
      exact parts.symm.trans (all.symm.append_right far)
    · intro other member
      rcases List.mem_append.mp member with behind | beyond
      · right
        have more : 3 < sorted.length := by
          have positive := List.length_pos_of_mem behind
          rw [List.length_drop] at positive
          omega
        refine ⟨by rw [List.length_take]; omega, fun chosen kept => across chosen kept other behind⟩
      · left
        simpa [far] using (List.mem_filter.mp beyond).2
  · intro permuted same
    obtain ⟨others, more, ascending, first⟩ := Suggestion.exists_sorted name permuted
    have shuffled : others.Perm sorted := more.trans ((same.symm.filter _).trans all.symm)
    have equal : others = sorted :=
      shuffled.eq_of_pairwise (fun _ _ _ _ there back => there.antisymm back) ascending ordered
    rw [first, equal]

theorem suggestions_best_ab :
    suggestions Text.editDistance "ab" ["b", "abc", "ac", "a"] =
      suggestions Text.editDistance "ab" ["a", "b", "ac", "abc"] :=
  (suggestions_best Text.editDistance_countsEdits "ab" ["a", "b", "ac", "abc"]).2.2.2.2.2
    ["b", "abc", "ac", "a"] (by decide)

/-- Of four names that are one edit away the greatest one is left out. -/
example : suggestions Text.editDistance "ab" ["b", "abc", "ac", "a"] = ["a", "abc", "ac"] := by cbv

end Phrasebook
