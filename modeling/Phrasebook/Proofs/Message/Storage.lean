import Mathlib.Data.Finset.Card
import Phrasebook.Proofs.Resolve.Capacity

namespace Phrasebook.Catalog

section places

theorem nodup_targets (catalog : Catalog) : catalog.targets.Nodup := by
  refine List.nodup_flatMap.mpr ⟨fun entry member => ?_, catalog.ascending.imp fun less => ?_⟩
  · have places : (entry.2.map Prod.fst).map (Target.mk entry.1) =
        entry.2.map fun stored => ⟨entry.1, stored.1⟩ := List.map_map
    rw [← places]
    exact (catalog.distinct entry member).map fun path other same => (Target.mk.inj same).2
  · intro target first second
    obtain ⟨stored, -, rfl⟩ := List.mem_map.mp first
    obtain ⟨other, -, same⟩ := List.mem_map.mp second
    exact String.lt_irrefl _ ((Target.mk.inj same).1 ▸ less)

theorem mem_targets_iff (catalog : Catalog) {target : Target} :
    target ∈ catalog.targets ↔ (catalog.get? target.resource target.path).isSome := by
  constructor
  · intro member
    obtain ⟨entry, among, listed⟩ := List.mem_flatMap.mp member
    obtain ⟨stored, there, rfl⟩ := List.mem_map.mp listed
    have owner := (Keyed.mem_iff_lookup catalog.ascending.nodup).mp among
    have found := (Keyed.mem_iff_lookup (catalog.distinct entry among)).mp there
    simp only [get?, owner, Option.bind_some, found, Option.isSome_some]
  · intro there
    obtain ⟨message, found⟩ := Option.isSome_iff_exists.mp there
    exact mem_targets found

theorem size_eq (catalog : Catalog) : catalog.size = catalog.targets.toFinset.card := by
  rw [List.toFinset_card_of_nodup catalog.nodup_targets, length_targets]

theorem mem_resourceNames_iff (catalog : Catalog) {resource : String} :
    resource ∈ catalog.resourceNames ↔ ∃ target ∈ catalog.targets, target.resource = resource := by
  constructor
  · intro member
    obtain ⟨entry, among, rfl⟩ := List.mem_map.mp member
    obtain ⟨stored, there⟩ := List.exists_mem_of_ne_nil _ (catalog.filled entry among)
    have listed : (⟨entry.1, stored.1⟩ : Target) ∈ entry.2.map fun message => ⟨entry.1, message.1⟩ :=
      List.mem_map.mpr ⟨stored, there, rfl⟩
    exact ⟨⟨entry.1, stored.1⟩, List.mem_flatMap.mpr ⟨entry, among, listed⟩, rfl⟩
  · rintro ⟨target, member, rfl⟩
    obtain ⟨entry, among, listed⟩ := List.mem_flatMap.mp member
    obtain ⟨stored, -, rfl⟩ := List.mem_map.mp listed
    exact List.mem_map.mpr ⟨entry, among, rfl⟩

end places

section histories

theorem get?_insert (catalog : Catalog) (target other : Target) (message : Message) :
    (catalog.insert target.resource target.path message).get? other.resource other.path =
      if other = target then some message else catalog.get? other.resource other.path := by
  obtain ⟨resource, path⟩ := target
  obtain ⟨resource', path'⟩ := other
  by_cases owner : resource' = resource
  · subst owner
    by_cases same : path' = path
    · subst same
      rw [get?_insert_self, if_pos rfl]
    · rw [get?_insert_of_path_ne _ _ same, if_neg fun equal => same (Target.mk.inj equal).2]
  · rw [get?_insert_of_resource_ne _ owner, if_neg fun equal => owner (Target.mk.inj equal).1]

/-- The catalog that a row of insertions leaves. -/
def ofInsertions (insertions : List (Target × Message)) : Catalog :=
  insertions.foldl (fun catalog entry =>
    (catalog.replace entry.1.resource entry.1.path entry.2).2) empty

theorem ofInsertions_concat (insertions : List (Target × Message)) (target : Target)
    (message : Message) : ofInsertions (insertions ++ [(target, message)]) =
      (ofInsertions insertions).insert target.resource target.path message := List.foldl_concat ..

/-- What is found at a place is the last message that was inserted there. -/
theorem get?_ofInsertions (insertions : List (Target × Message)) (target : Target) :
    (ofInsertions insertions).get? target.resource target.path = insertions.reverse.lookup target := by
  induction insertions using List.reverseRecOn with
  | nil => rfl
  | append_singleton insertions entry ih =>
    obtain ⟨place, message⟩ := entry
    rw [ofInsertions_concat, get?_insert, List.reverse_concat]
    split
    · next same => rw [same, Keyed.lookup_cons_self]
    · next different => rw [Keyed.lookup_cons_of_ne different, ih]

theorem mem_targets_ofInsertions {insertions : List (Target × Message)} {target : Target} :
    target ∈ (ofInsertions insertions).targets ↔ target ∈ insertions.map Prod.fst := by
  rw [(ofInsertions insertions).mem_targets_iff, get?_ofInsertions, Keyed.isSome_lookup_iff,
    List.map_reverse, List.mem_reverse]

theorem size_ofInsertions (insertions : List (Target × Message)) :
    (ofInsertions insertions).size = (insertions.map Prod.fst).toFinset.card := by
  rw [(ofInsertions insertions).size_eq]
  congr 1
  ext target
  rw [List.mem_toFinset, List.mem_toFinset, mem_targets_ofInsertions]

private theorem size_ofInsertions_concat (insertions : List (Target × Message)) (target : Target)
    (message : Message) : (ofInsertions (insertions ++ [(target, message)])).size =
      (ofInsertions insertions).size + if (insertions.reverse.lookup target).isNone then 1 else 0 := by
  have added : ((insertions ++ [(target, message)]).map Prod.fst).toFinset =
      Insert.insert target (insertions.map Prod.fst).toFinset := by
    ext other
    simp
  have absent : (insertions.reverse.lookup target).isNone = true ↔
      target ∉ (insertions.map Prod.fst).toFinset := by
    rw [List.mem_toFinset, ← mem_targets_ofInsertions, (ofInsertions insertions).mem_targets_iff,
      get?_ofInsertions]
    cases insertions.reverse.lookup target <;> simp
  rw [size_ofInsertions, size_ofInsertions, added, Finset.card_insert_eq_ite]
  by_cases fresh : target ∈ (insertions.map Prod.fst).toFinset
  · rw [if_pos fresh, if_neg fun unfound => absent.mp unfound fresh, Nat.add_zero]
  · rw [if_neg fresh, if_pos (absent.mpr fresh)]

/-- After any row of insertions, what is found at a place, and given back where another message is
stored there, is the last message that was inserted at just this resource and path, if there was one.
The size is the number of the different places, and grows by one with each insertion that gives no
message back; a catalog is empty if nothing was inserted. The resources are those that were inserted
into, each of them once, in increasing order. -/
theorem ofInsertions_exact (insertions : List (Target × Message)) :
    (∀ resource path, (ofInsertions insertions).get? resource path =
      insertions.reverse.lookup ⟨resource, path⟩) ∧
    (∀ resource path message,
      let outcome := (ofInsertions insertions).replace resource path message
      outcome.1 = insertions.reverse.lookup ⟨resource, path⟩ ∧
      outcome.2 = ofInsertions (insertions ++ [(⟨resource, path⟩, message)]) ∧
      (outcome.2.size = (ofInsertions insertions).size + 1 ↔ outcome.1 = none) ∧
      (outcome.2.size = (ofInsertions insertions).size ↔ outcome.1 ≠ none)) ∧
    (ofInsertions insertions).size = (insertions.map Prod.fst).toFinset.card ∧
    ((ofInsertions insertions).isEmpty = true ↔ insertions = []) ∧
    (ofInsertions insertions).resourceNames.Pairwise (· < ·) ∧
    ∀ resource, resource ∈ (ofInsertions insertions).resourceNames ↔
      ∃ entry ∈ insertions, entry.1.resource = resource := by
  have found (resource : String) (path : List String) := get?_ofInsertions insertions ⟨resource, path⟩
  refine ⟨found, ?_, size_ofInsertions insertions, ?_, List.pairwise_map.mpr (ofInsertions insertions).ascending, ?_⟩
  · intro resource path message outcome
    have concat : ofInsertions (insertions ++ [(⟨resource, path⟩, message)]) = outcome.2 :=
      ofInsertions_concat ..
    have grown := size_ofInsertions_concat insertions ⟨resource, path⟩ message
    have given : outcome.1 = insertions.reverse.lookup ⟨resource, path⟩ := found resource path
    rw [concat, ← given] at grown
    refine ⟨given, concat.symm, ?_⟩
    rw [grown]
    cases outcome.1 <;> simp
  · rw [isEmpty, beq_iff_eq, size_ofInsertions, Finset.card_eq_zero, List.toFinset_eq_empty_iff,
      List.map_eq_nil_iff]
  · intro resource
    rw [mem_resourceNames_iff]
    simp only [mem_targets_ofInsertions, List.mem_map]
    constructor
    · rintro ⟨target, ⟨entry, member, rfl⟩, same⟩
      exact ⟨entry, member, same⟩
    · rintro ⟨entry, member, same⟩
      exact ⟨entry.1, ⟨entry, member, rfl⟩, same⟩

end histories

end Phrasebook.Catalog
