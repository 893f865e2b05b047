/-!
Association lists. `put` keeps the order in which keys first came, `putSorted` keeps text keys in
increasing order; both replace the value of a key that is there. Lookup is `List.lookup`.
-/

namespace Phrasebook.Keyed

/-- Sets the value of a key, in place if the key is there and at the end if not. -/
def put [DecidableEq κ] (key : κ) (value : α) : List (κ × α) → List (κ × α)
  | [] => [(key, value)]
  | (other, old) :: rest =>
    if other = key then (key, value) :: rest else (other, old) :: put key value rest

/-- Sets the value of a key in a list with increasing keys. -/
def putSorted (key : String) (value : α) : List (String × α) → List (String × α)
  | [] => [(key, value)]
  | (other, old) :: rest =>
    if key = other then (key, value) :: rest
    else if key < other then (key, value) :: (other, old) :: rest
    else (other, old) :: putSorted key value rest

/-- Puts every pair in turn, so that the last value of a repeated key stays. -/
def ofPairs [DecidableEq κ] (pairs : List (κ × α)) : List (κ × α) :=
  pairs.foldl (fun entries pair => put pair.1 pair.2 entries) []

/-- Puts every pair in turn, in increasing order of the keys. -/
def sortedOfPairs (pairs : List (String × α)) : List (String × α) :=
  pairs.foldl (fun entries pair => putSorted pair.1 pair.2 entries) []

section lookup

variable [BEq κ] [LawfulBEq κ]

theorem lookup_cons_self (key : κ) (value : α) (rest : List (κ × α)) :
    ((key, value) :: rest).lookup key = some value := by simp

theorem lookup_cons_of_ne {key other : κ} (different : other ≠ key) (value : α)
    (rest : List (κ × α)) : ((key, value) :: rest).lookup other = rest.lookup other := by
  rw [List.lookup_cons, beq_false_of_ne different]

theorem mem_of_lookup {entries : List (κ × α)} {key : κ} {value : α}
    (found : entries.lookup key = some value) : (key, value) ∈ entries := by
  obtain ⟨before, after, rfl, -⟩ := List.lookup_eq_some_iff.mp found
  simp

theorem isSome_lookup_iff {entries : List (κ × α)} {key : κ} :
    (entries.lookup key).isSome ↔ key ∈ entries.map Prod.fst := by
  rw [List.lookup_isSome_iff, List.mem_map]
  exact exists_congr fun entry => and_congr_right fun _ => by rw [beq_iff_eq, eq_comm]

/-- A change of values that may go by their keys. -/
theorem lookup_map_keyed (change : κ → α → β) (key : κ) (entries : List (κ × α)) :
    (entries.map fun entry => (entry.1, change entry.1 entry.2)).lookup key =
      (entries.lookup key).map (change key) := by
  induction entries with
  | nil => rfl
  | cons entry rest ih =>
    obtain ⟨other, value⟩ := entry
    by_cases same : key = other
    · subst same
      rw [List.map_cons, lookup_cons_self, lookup_cons_self, Option.map_some]
    · rw [List.map_cons, lookup_cons_of_ne same, lookup_cons_of_ne same, ih]

theorem lookup_map (change : α → β) (key : κ) (entries : List (κ × α)) :
    (entries.map fun entry => (entry.1, change entry.2)).lookup key =
      (entries.lookup key).map change := lookup_map_keyed (fun _ => change) key entries

/-- Where every key is there once, its entry is the one that is found. -/
theorem mem_iff_lookup {entries : List (κ × α)}
    (distinct : (entries.map Prod.fst).Nodup) {key : κ} {value : α} :
    (key, value) ∈ entries ↔ entries.lookup key = some value := by
  induction entries with
  | nil => simp
  | cons entry rest ih =>
    obtain ⟨first, stored⟩ := entry
    obtain ⟨fresh, others⟩ := List.nodup_cons.mp distinct
    rw [List.mem_cons, ih others]
    by_cases same : key = first
    · subst same
      have absent : rest.lookup key ≠ some value := fun found =>
        fresh (List.mem_map.mpr ⟨_, (ih others).mpr found, rfl⟩)
      simp [absent, eq_comm]
    · rw [lookup_cons_of_ne same]
      simp [same]

variable [DecidableEq κ]

/-- Entries under other keys do not come into a lookup. -/
theorem lookup_filter_self (key : κ) (entries : List (κ × α)) :
    (entries.filter fun entry => entry.1 = key).lookup key = entries.lookup key := by
  induction entries with
  | nil => rfl
  | cons entry rest ih =>
    obtain ⟨first, value⟩ := entry
    by_cases same : first = key
    · subst same
      rw [List.filter_cons_of_pos (by simp), lookup_cons_self, lookup_cons_self]
    · rw [List.filter_cons_of_neg (by simpa using same), ih, lookup_cons_of_ne (Ne.symm same)]

theorem lookup_put_self (key : κ) (value : α) (entries : List (κ × α)) :
    (put key value entries).lookup key = some value := by
  induction entries with
  | nil => exact lookup_cons_self ..
  | cons entry rest ih =>
    obtain ⟨other, old⟩ := entry
    by_cases same : other = key
    · simp [put, same]
    · rw [put, if_neg same, lookup_cons_of_ne (Ne.symm same), ih]

theorem lookup_put_of_ne {key other : κ} (different : other ≠ key) (value : α)
    (entries : List (κ × α)) :
    (put key value entries).lookup other = entries.lookup other := by
  induction entries with
  | nil => exact lookup_cons_of_ne different ..
  | cons entry rest ih =>
    obtain ⟨first, old⟩ := entry
    by_cases same : first = key
    · subst same
      rw [put, if_pos rfl, lookup_cons_of_ne different, lookup_cons_of_ne different]
    · rw [put, if_neg same, List.lookup_cons, List.lookup_cons, ih]

end lookup

theorem lookup_putSorted_self (key : String) (value : α) (entries : List (String × α)) :
    (putSorted key value entries).lookup key = some value := by
  induction entries with
  | nil => exact lookup_cons_self ..
  | cons entry rest ih =>
    obtain ⟨other, old⟩ := entry
    by_cases same : key = other
    · rw [putSorted, if_pos same]
      exact lookup_cons_self ..
    · rw [putSorted, if_neg same]
      split
      · exact lookup_cons_self ..
      · rw [lookup_cons_of_ne same, ih]

theorem lookup_putSorted_of_ne {key other : String} (different : other ≠ key) (value : α)
    (entries : List (String × α)) :
    (putSorted key value entries).lookup other = entries.lookup other := by
  induction entries with
  | nil => exact lookup_cons_of_ne different ..
  | cons entry rest ih =>
    obtain ⟨first, old⟩ := entry
    by_cases same : key = first
    · subst same
      rw [putSorted, if_pos rfl, lookup_cons_of_ne different, lookup_cons_of_ne different]
    · rw [putSorted, if_neg same]
      split
      · exact lookup_cons_of_ne different ..
      · rw [List.lookup_cons, List.lookup_cons, ih]

section insertions

/-- After a row of insertions a key has the value of the last one for it, or else what it had. -/
theorem lookup_foldl [BEq κ] [LawfulBEq κ] {insert : κ → α → List (κ × α) → List (κ × α)}
    (self : ∀ key value entries, (insert key value entries).lookup key = some value)
    (others : ∀ {key other}, other ≠ key → ∀ value entries,
      (insert key value entries).lookup other = entries.lookup other)
    (pairs entries : List (κ × α)) (key : κ) :
    (pairs.foldl (fun entries pair => insert pair.1 pair.2 entries) entries).lookup key =
      (pairs.reverse.lookup key).or (entries.lookup key) := by
  induction pairs generalizing entries with
  | nil => rfl
  | cons pair pairs ih =>
    obtain ⟨first, value⟩ := pair
    rw [List.foldl_cons, ih, List.reverse_cons, List.lookup_append, Option.or_assoc]
    congr 1
    by_cases same : key = first
    · subst same
      rw [self, lookup_cons_self, Option.some_or]
    · rw [others same, lookup_cons_of_ne same]
      rfl

theorem lookup_ofPairs [BEq κ] [LawfulBEq κ] [DecidableEq κ] (pairs : List (κ × α)) (key : κ) :
    (ofPairs pairs).lookup key = pairs.reverse.lookup key := by
  rw [ofPairs, lookup_foldl lookup_put_self lookup_put_of_ne, List.lookup_nil, Option.or_none]

theorem lookup_sortedOfPairs (pairs : List (String × α)) (key : String) :
    (sortedOfPairs pairs).lookup key = pairs.reverse.lookup key := by
  rw [sortedOfPairs, lookup_foldl lookup_putSorted_self lookup_putSorted_of_ne, List.lookup_nil,
    Option.or_none]

theorem nodup_keys_concat {entries : List (κ × α)} (distinct : (entries.map Prod.fst).Nodup)
    {key : κ} (fresh : key ∉ entries.map Prod.fst) (value : α) :
    ((entries ++ [(key, value)]).map Prod.fst).Nodup := by
  rw [List.map_append]
  refine List.nodup_append.mpr ⟨distinct, List.nodup_cons.mpr ⟨List.not_mem_nil, .nil⟩, ?_⟩
  rintro other member last only rfl
  obtain rfl : other = key := List.mem_singleton.mp only
  exact fresh member

variable [DecidableEq κ]

theorem keys_put (key : κ) (value : α) (entries : List (κ × α)) :
    (put key value entries).map Prod.fst =
      if key ∈ entries.map Prod.fst then entries.map Prod.fst
      else entries.map Prod.fst ++ [key] := by
  induction entries with
  | nil => rfl
  | cons entry rest ih =>
    obtain ⟨other, old⟩ := entry
    by_cases same : other = key
    · simp [put, same]
    · rw [put, if_neg same, List.map_cons, ih, List.map_cons]
      by_cases member : key ∈ rest.map Prod.fst
      · rw [if_pos member, if_pos (List.mem_cons_of_mem _ member)]
      · have fresh : key ∉ other :: rest.map Prod.fst :=
          List.not_mem_cons_of_ne_of_not_mem (Ne.symm same) member
        rw [if_neg member, if_neg fresh, List.cons_append]

theorem put_ne_nil (key : κ) (value : α) (entries : List (κ × α)) : put key value entries ≠ [] := by
  cases entries with
  | nil => exact List.cons_ne_nil _ _
  | cons entry rest =>
    rw [put]
    split <;> exact List.cons_ne_nil _ _

theorem nodup_keys_put {entries : List (κ × α)} (distinct : (entries.map Prod.fst).Nodup) (key : κ)
    (value : α) : ((put key value entries).map Prod.fst).Nodup := by
  rw [keys_put]
  split
  · exact distinct
  · next fresh => simpa using nodup_keys_concat distinct fresh value

theorem mem_of_mem_put {key : κ} {value : α} {entries : List (κ × α)} {entry : κ × α}
    (member : entry ∈ put key value entries) : entry = (key, value) ∨ entry ∈ entries := by
  induction entries with
  | nil => exact .inl (List.mem_singleton.mp member)
  | cons first rest ih =>
    rw [put] at member
    split at member
    · exact (List.mem_cons.mp member).imp_right (List.mem_cons_of_mem _)
    · rcases List.mem_cons.mp member with rfl | later
      · exact .inr List.mem_cons_self
      · exact (ih later).imp_right (List.mem_cons_of_mem _)

/-- Insertions invent nothing. -/
theorem mem_of_mem_ofPairs {pairs : List (κ × α)} {entry : κ × α} (member : entry ∈ ofPairs pairs) :
    entry ∈ pairs := by
  have kept : ∀ stored ∈ ofPairs pairs, stored ∈ pairs :=
    pairs.foldlRecOn (motive := fun entries : List (κ × α) => ∀ stored ∈ entries, stored ∈ pairs) _
      (List.forall_mem_nil _) fun _ kept pair listed stored present =>
        (mem_of_mem_put present).elim (fun same => same ▸ listed) (kept stored)
  exact kept entry member

/-- Every key is there once. -/
theorem nodup_keys_ofPairs (pairs : List (κ × α)) : ((ofPairs pairs).map Prod.fst).Nodup :=
  pairs.foldlRecOn (motive := fun entries : List (κ × α) => (entries.map Prod.fst).Nodup) _ .nil
    fun _ distinct pair _ => nodup_keys_put distinct pair.1 pair.2

end insertions

section order

/-- The keys are in increasing order, each of them once. -/
def Ascending (entries : List (String × α)) : Prop :=
  entries.Pairwise fun entry later => entry.1 < later.1

theorem mem_of_mem_putSorted {key : String} {value : α} {entries : List (String × α)}
    {entry : String × α} (member : entry ∈ putSorted key value entries) :
    entry = (key, value) ∨ entry ∈ entries := by
  induction entries with
  | nil => exact .inl (List.mem_singleton.mp member)
  | cons first rest ih =>
    rw [putSorted] at member
    split at member
    · exact (List.mem_cons.mp member).imp_right (List.mem_cons_of_mem _)
    · split at member
      · exact List.mem_cons.mp member
      · rcases List.mem_cons.mp member with rfl | later
        · exact .inr List.mem_cons_self
        · exact (ih later).imp_right (List.mem_cons_of_mem _)

theorem Ascending.putSorted {entries : List (String × α)} (ascending : Ascending entries)
    (key : String) (value : α) : Ascending (putSorted key value entries) := by
  induction entries with
  | nil => exact List.pairwise_singleton ..
  | cons first rest ih =>
    obtain ⟨before, ordered⟩ := List.pairwise_cons.mp ascending
    rw [Keyed.putSorted]
    split
    · next same =>
      refine List.pairwise_cons.mpr ⟨fun later member => ?_, ordered⟩
      exact same ▸ before later member
    · next different =>
      split
      · next less =>
        refine List.pairwise_cons.mpr ⟨fun later member => ?_, ascending⟩
        rcases List.mem_cons.mp member with rfl | behind
        · exact less
        · exact String.lt_trans less (before later behind)
      · next notLess =>
        refine List.pairwise_cons.mpr ⟨fun later member => ?_, ih ordered⟩
        rcases mem_of_mem_putSorted member with rfl | behind
        · exact Std.lt_of_le_of_ne (String.not_lt.mp notLess) (Ne.symm different)
        · exact before later behind

theorem ascending_sortedOfPairs (pairs : List (String × α)) : Ascending (sortedOfPairs pairs) :=
  pairs.foldlRecOn (motive := Ascending) _ .nil fun _ ascending pair _ =>
    ascending.putSorted pair.1 pair.2

theorem Ascending.nodup {entries : List (String × α)} (ascending : Ascending entries) :
    (entries.map Prod.fst).Nodup :=
  List.pairwise_map.mpr (ascending.imp Std.ne_of_lt)

theorem Ascending.map_values {entries : List (String × α)} (ascending : Ascending entries)
    (change : String → α → β) :
    Ascending (entries.map fun entry => (entry.1, change entry.1 entry.2)) :=
  List.pairwise_map.mpr ascending

/-- Lists in increasing order of keys are the same if the same is found in them. -/
theorem Ascending.eq_of_lookup {entries others : List (String × α)} (first : Ascending entries)
    (second : Ascending others) (same : ∀ key, entries.lookup key = others.lookup key) :
    entries = others := by
  have members (entry : String × α) : entry ∈ entries ↔ entry ∈ others := by
    rw [mem_iff_lookup first.nodup, mem_iff_lookup second.nodup, same]
  have distinct {entries : List (String × α)} (ascending : Ascending entries) : entries.Nodup :=
    ascending.imp fun less => mt (congrArg Prod.fst) (Std.ne_of_lt less)
  have permuted : entries.Perm others :=
    (List.perm_ext_iff_of_nodup (distinct first) (distinct second)).mpr members
  refine permuted.eq_of_pairwise (fun entry other _ _ less greater => ?_) first second
  exact absurd (String.lt_trans less greater) (String.lt_irrefl _)

end order

end Phrasebook.Keyed
