import Phrasebook.Decimal.Shortest
import Phrasebook.Keyed

/-!
Metadata bags: scalar values under text keys, in the order in which the keys came. The first write of
a key wins.
-/

namespace Phrasebook

/-- A scalar metadata value. -/
inductive Scalar where
  | bool (value : Bool)
  | number (value : Float)
  | text (value : String)

namespace Scalar

/-- The text, if the scalar is one. -/
def text? : Scalar → Option String
  | .text value => some value
  | _ => none

def display : Scalar → String
  | .bool value => if value then "true" else "false"
  | .number value => Decimal.floatText value
  | .text value => value

end Scalar

/-- A bag of scalars. Every key is in it once. -/
@[ext]
structure Metadata where
  entries : List (String × Scalar)
  distinct : (entries.map Prod.fst).Nodup

namespace Metadata

def empty : Metadata := ⟨[], .nil⟩

instance : Inhabited Metadata := ⟨empty⟩

def isEmpty (bag : Metadata) : Bool := bag.entries.isEmpty

def size (bag : Metadata) : Nat := bag.entries.length

def get? (bag : Metadata) (key : String) : Option Scalar := bag.entries.lookup key

def contains (bag : Metadata) (key : String) : Bool := (bag.get? key).isSome

theorem contains_iff {bag : Metadata} {key : String} :
    bag.contains key = true ↔ key ∈ bag.entries.map Prod.fst := Keyed.isSome_lookup_iff

/-- Stores a value unless its key is there. -/
def insert (bag : Metadata) (key : String) (value : Scalar) : Metadata :=
  if present : bag.contains key then bag
  else ⟨bag.entries ++ [(key, value)],
    Keyed.nodup_keys_concat bag.distinct (mt contains_iff.mpr present) value⟩

/-- Inserts the pairs in turn. -/
def insertAll (bag : Metadata) (pairs : List (String × Scalar)) : Metadata :=
  pairs.foldl (fun bag pair => bag.insert pair.1 pair.2) bag

/-- The bag of a list of pairs. -/
def ofList (pairs : List (String × Scalar)) : Metadata := empty.insertAll pairs

/-- The entries of the first bag, then those of the second under keys that the first lacks. -/
def merge (first second : Metadata) : Metadata := first.insertAll second.entries

/-- Merges bags of which either may be missing; the result is missing if both are. -/
def mergeOptional : Option Metadata → Option Metadata → Option Metadata
  | some first, some second => some (first.merge second)
  | some only, none => some only
  | none, other => other

theorem entries_insert (bag : Metadata) (key : String) (value : Scalar) :
    (bag.insert key value).entries =
      if bag.contains key then bag.entries else bag.entries ++ [(key, value)] := apply_dite ..

theorem get?_insert_self (bag : Metadata) (key : String) (value : Scalar) :
    (bag.insert key value).get? key = some ((bag.get? key).getD value) := by
  unfold get?
  rw [entries_insert, contains, get?]
  cases found : bag.entries.lookup key with
  | none => simp [List.lookup_append, found]
  | some stored => simp [found]

theorem get?_insert_of_ne {key other : String} (different : other ≠ key) (bag : Metadata)
    (value : Scalar) : (bag.insert key value).get? other = bag.get? other := by
  unfold get?
  rw [entries_insert]
  split
  · rfl
  · rw [List.lookup_append, Keyed.lookup_cons_of_ne different]
    simp

/-- Pairs with distinct keys are put behind a bag, as far as it lacks their keys. -/
theorem entries_insertAll (bag : Metadata) {pairs : List (String × Scalar)}
    (distinct : (pairs.map Prod.fst).Nodup) :
    (bag.insertAll pairs).entries =
      bag.entries ++ pairs.filter fun pair => !bag.contains pair.1 := by
  induction pairs generalizing bag with
  | nil => exact (List.append_nil _).symm
  | cons pair pairs ih =>
    obtain ⟨key, value⟩ := pair
    obtain ⟨fresh, others⟩ := List.nodup_cons.mp distinct
    have kept : (pairs.filter fun pair => !(bag.insert key value).contains pair.1) =
        pairs.filter fun pair => !bag.contains pair.1 := by
      refine List.filter_congr fun pair member => ?_
      have different : pair.1 ≠ key := fun same =>
        fresh (List.mem_map.mpr ⟨pair, member, same⟩)
      rw [contains, contains, get?_insert_of_ne different]
    have step : bag.insertAll ((key, value) :: pairs) = (bag.insert key value).insertAll pairs := rfl
    rw [step, ih (bag.insert key value) others, kept]
    cases present : bag.contains key <;> simp [entries_insert, present]

theorem contains_eq (bag : Metadata) (key : String) : bag.contains key = (bag.get? key).isSome := rfl

theorem contains_of_mem {bag : Metadata} {entry : String × Scalar} (member : entry ∈ bag.entries) :
    bag.contains entry.1 = true := List.lookup_isSome_iff.mpr ⟨entry, member, beq_self_eq_true _⟩

theorem insert_of_contains {bag : Metadata} {key : String} (present : bag.contains key = true)
    (value : Scalar) : bag.insert key value = bag := dif_pos present

section insertions

/-- A stored value comes before what is inserted, and of that the first of each key counts. -/
theorem get?_insertAll (bag : Metadata) (pairs : List (String × Scalar)) (key : String) :
    (bag.insertAll pairs).get? key = (bag.get? key).or (pairs.lookup key) := by
  induction pairs generalizing bag with
  | nil => exact Option.or_none.symm
  | cons pair pairs ih =>
    obtain ⟨other, value⟩ := pair
    have step : bag.insertAll ((other, value) :: pairs) = (bag.insert other value).insertAll pairs := rfl
    rw [step, ih]
    by_cases same : key = other
    · subst same
      rw [get?_insert_self, Keyed.lookup_cons_self]
      cases bag.get? key <;> rfl
    · rw [get?_insert_of_ne same, Keyed.lookup_cons_of_ne same]

theorem insertAll_append (bag : Metadata) (first second : List (String × Scalar)) :
    bag.insertAll (first ++ second) = (bag.insertAll first).insertAll second := List.foldl_append

theorem insertAll_of_contains {bag : Metadata} {pairs : List (String × Scalar)}
    (present : ∀ pair ∈ pairs, bag.contains pair.1 = true) : bag.insertAll pairs = bag := by
  induction pairs with
  | nil => rfl
  | cons pair pairs ih =>
    obtain ⟨first, others⟩ := List.forall_mem_cons.mp present
    have step : bag.insertAll (pair :: pairs) = (bag.insert pair.1 pair.2).insertAll pairs := rfl
    rw [step, insert_of_contains first, ih others]

/-- Of the entries of a bag that was filled, those that it did not take are not missed. -/
theorem insertAll_insertAll (bag filled : Metadata) (pairs : List (String × Scalar)) :
    bag.insertAll (filled.insertAll pairs).entries = (bag.insertAll filled.entries).insertAll pairs := by
  induction pairs generalizing filled with
  | nil => rfl
  | cons pair pairs ih =>
    obtain ⟨key, value⟩ := pair
    have stored : bag.insertAll (filled.insert key value).entries =
        (bag.insertAll filled.entries).insert key value := by
      cases present : filled.contains key with
      | true =>
        have kept : (bag.insertAll filled.entries).contains key = true := by
          have found : (filled.entries.lookup key).isSome = true := present
          rw [contains_eq, get?_insertAll, Option.isSome_or, found, Bool.or_true]
        rw [insert_of_contains present, insert_of_contains kept]
      | false =>
        rw [entries_insert, if_neg (Bool.eq_false_iff.mp present), insertAll_append]
        rfl
    calc bag.insertAll (filled.insertAll ((key, value) :: pairs)).entries
      _ = bag.insertAll ((filled.insert key value).insertAll pairs).entries := rfl
      _ = (bag.insertAll (filled.insert key value).entries).insertAll pairs := ih ..
      _ = (bag.insertAll filled.entries).insertAll ((key, value) :: pairs) := by rw [stored]; rfl

end insertions

section merging

/-- The first bag comes before the second. -/
theorem get?_merge (first second : Metadata) (key : String) :
    (first.merge second).get? key = (first.get? key).or (second.get? key) := get?_insertAll ..

theorem merge_assoc (first second third : Metadata) :
    (first.merge second).merge third = first.merge (second.merge third) :=
  (insertAll_insertAll first second third.entries).symm

instance : Std.Associative merge := ⟨merge_assoc⟩

theorem merge_self (bag : Metadata) : bag.merge bag = bag :=
  insertAll_of_contains fun _ => contains_of_mem

theorem merge_empty (bag : Metadata) : bag.merge .empty = bag := rfl

theorem empty_merge (bag : Metadata) : empty.merge bag = bag :=
  Metadata.ext <| (entries_insertAll empty bag.distinct).trans <|
    List.filter_eq_self.mpr fun _ _ => rfl

theorem get?_mergeOptional (first second : Option Metadata) (key : String) :
    (mergeOptional first second).bind (·.get? key) =
      (first.bind (·.get? key)).or (second.bind (·.get? key)) := by
  cases first with
  | none => rfl
  | some first =>
    cases second with
    | none => exact Option.or_none.symm
    | some second => exact get?_merge first second key

theorem mergeOptional_assoc (first second third : Option Metadata) :
    mergeOptional (mergeOptional first second) third =
      mergeOptional first (mergeOptional second third) := by
  cases first <;> cases second <;> cases third <;>
    simp only [mergeOptional, merge_assoc]

theorem mergeOptional_none (bag : Option Metadata) : mergeOptional bag none = bag := by
  cases bag <;> rfl

end merging

end Metadata

end Phrasebook
