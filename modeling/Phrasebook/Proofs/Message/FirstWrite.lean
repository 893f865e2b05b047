import Mathlib.Data.List.Nodup
import Phrasebook.Proofs.Resolve.Reference

namespace Phrasebook

namespace Metadata

section bags

/-- What the earlier bag holds is still there in the later one, in the same places. -/
def Grows (earlier later : Metadata) : Prop := earlier.entries <+: later.entries

variable {bag : Metadata}

theorem Grows.refl (bag : Metadata) : bag.Grows bag := List.prefix_rfl

theorem grows_insert (bag : Metadata) (key : String) (value : Scalar) :
    bag.Grows (bag.insert key value) := by
  rw [Grows, entries_insert]
  split
  · exact List.prefix_rfl
  · exact List.prefix_append ..

private theorem insertValue_eq_or (bag : Metadata) (key : String) (value : Value) :
    bag.insertValue key value = bag ∨ ∃ scalar, bag.insertValue key value = bag.insert key scalar := by
  unfold insertValue
  split
  · next scalar _ => exact .inr ⟨scalar, rfl⟩
  · exact .inl rfl

private theorem grows_insertValue (bag : Metadata) (key : String) (value : Value) :
    bag.Grows (bag.insertValue key value) := by
  rcases bag.insertValue_eq_or key value with same | ⟨scalar, same⟩
  · rw [same]
    exact .refl bag
  · rw [same]
    exact bag.grows_insert key scalar

theorem get?_insert (bag : Metadata) (key : String) (value : Scalar) (other : String) :
    (bag.insert key value).get? other = (bag.get? other).or (if other = key then some value else none) := by
  split
  · next same =>
    subst same
    rw [get?_insert_self]
    cases bag.get? other <;> rfl
  · next different => rw [get?_insert_of_ne different, Option.or_none]

private theorem get?_insertValue (bag : Metadata) (key : String) (value : Value) (other : String) :
    (bag.insertValue key value).get? other =
      (bag.get? other).or (if other = key then value.scalar? else none) := by
  unfold insertValue
  cases value.scalar? with
  | none => rw [ite_self, Option.or_none]
  | some scalar => exact bag.get?_insert key scalar other

end bags

section histories

/-- What can be done with bags. They are named by their numbers, in the order in which they came. -/
inductive Operation where
  | create
  | insert (slot : Nat) (key : String) (value : Scalar)
  | insertValue (slot : Nat) (key : String) (value : Value)
  | merge (first second : Nat)
  | mergeOptional (first second : Option Nat)

/-- The bags after one more operation. Merging leaves its bags as they are and makes another one. An
insertion into a bag that there is not does nothing. -/
def Operation.apply (bags : List Metadata) : Operation → List Metadata
  | .create => bags ++ [.empty]
  | .insert slot key value => bags.modify slot (·.insert key value)
  | .insertValue slot key value => bags.modify slot (·.insertValue key value)
  | .merge first second =>
    bags ++ (bags[first]?.bind fun bag => bags[second]?.map bag.merge).toList
  | .mergeOptional first second =>
    bags ++ (Metadata.mergeOptional (first.bind (bags[·]?)) (second.bind (bags[·]?))).toList

/-- The bags that a history leaves. -/
def run (history : List Operation) : List Metadata := history.foldl Operation.apply []

variable {bags : List Metadata} {bag : Metadata}

theorem Operation.apply_grows {slot : Nat} (there : bags[slot]? = some bag) (operation : Operation) :
    ∃ grown, (operation.apply bags)[slot]? = some grown ∧ bag.Grows grown := by
  have behind (others : List Metadata) : (bags ++ others)[slot]? = some bag :=
    List.getElem?_append_left (List.getElem?_eq_some_iff.mp there).1 ▸ there
  have changed {change : Metadata → Metadata} (grows : bag.Grows (change bag)) (place : Nat) :
      ∃ grown, (bags.modify place change)[slot]? = some grown ∧ bag.Grows grown := by
    rw [List.getElem?_modify, there]
    refine ⟨_, rfl, ?_⟩
    split
    · exact grows
    · exact .refl bag
  cases operation with
  | insert place key value => exact changed (bag.grows_insert key value) place
  | insertValue place key value => exact changed (bag.grows_insertValue key value) place
  | _ => exact ⟨bag, behind _, .refl bag⟩

theorem run_grows {history : List Operation} {slot : Nat} (there : (run history)[slot]? = some bag)
    (later : List Operation) :
    ∃ grown, (run (history ++ later))[slot]? = some grown ∧ bag.Grows grown := by
  rw [run, List.foldl_append]
  refine later.foldlRecOn
    (motive := fun bags : List Metadata => ∃ grown, bags[slot]? = some grown ∧ bag.Grows grown) _
    ⟨bag, there, .refl bag⟩ ?_
  rintro bags ⟨grown, found, kept⟩ operation -
  obtain ⟨next, after, more⟩ := operation.apply_grows found
  exact ⟨next, after, kept.trans more⟩

end histories

end Metadata

section terms

open Metadata (Operation run)

variable [Monad m] [LawfulMonad m] [MonadAttach m] [LawfulMonadAttach m]

/-- The metadata that the choice of a variant gives where a message is resolved. A pattern has none. -/
inductive Message.ChoiceNotes (descend : Descent m) (context : Context m) (message : Message) :
    Option Metadata → Prop where
  | pattern (body : message.body = .pattern node) : ChoiceNotes descend context message none
  | select (body : message.body = .select node)
      (chosen : CanEnd (resolveSelect descend context node) (.ok selection)) :
      ChoiceNotes descend context message selection.metadata

private theorem choiceNotes_of_canEnd {descend : Descent m} {context : Context m} {message : Message}
    {resolved : ResolvedBody} (ends : CanEnd (resolveBody descend context message) (.ok resolved)) :
    message.ChoiceNotes descend context resolved.selection := by
  simp only [resolveBody] at ends
  split at ends
  · next node body =>
    obtain ⟨pieces, -, rest⟩ := exists_of_canEnd_bind ends
    cases eq_of_canEnd_pure rest
    exact .pattern body
  · next node body =>
    obtain ⟨selection, chosen, rest⟩ := exists_of_canEnd_bind ends
    have same : resolved.selection = selection.metadata := by
      split at rest
      · cases eq_of_canEnd_pure rest
        rfl
      · obtain ⟨pieces, -, last⟩ := exists_of_canEnd_bind rest
        cases eq_of_canEnd_pure last
        rfl
    exact same ▸ .select body chosen

private theorem get?_map_merge (bag : Metadata) (inner : Option Metadata) (key : String) :
    ((inner.map bag.merge).getD bag).get? key = (bag.get? key).or (inner.bind (·.get? key)) := by
  cases inner with
  | none => exact Option.or_none.symm
  | some inner => exact bag.get?_merge inner key

private theorem get?_getD_empty (bag : Option Metadata) (key : String) :
    (bag.getD .empty).get? key = bag.bind (·.get? key) := by
  cases bag <;> rfl

/-- A resolved term has the value of a key from its own metadata, else from that of its target, else
from the choice of the target's variant. -/
theorem get?_metadata_of_term {context : Context m} {term : Term} {found : Message} {piece : Piece}
    (there : context.lookup (term.place context).resource (term.place context).path = some found)
    (resolved : CanEnd (context.resolvePart (.term term)) (.ok piece)) :
    ∃ depth notes, context.remaining = depth + 1 ∧ found.ChoiceNotes (descent depth) { context with
        scope := term.scope context.scope
        resource := (term.place context).resource
        callStack := context.callStack ++ [(term.place context).key] } notes ∧
      ∀ key, piece.metadata.get? key =
        ((term.metadata.bind (·.get? key)).or (found.metadata.bind (·.get? key))).or
          (notes.bind (·.get? key)) := by
  obtain ⟨body, descended, rfl⟩ := exists_of_canEnd_termPiece there resolved
  obtain ⟨depth, remaining, entered⟩ := exists_of_canEnd_descent descended
  refine ⟨depth, body.selection, remaining, choiceNotes_of_canEnd entered, fun key => ?_⟩
  rw [Piece.metadata, get?_map_merge, get?_getD_empty, Metadata.get?_mergeOptional, Option.or_assoc]

/-- Whatever is done with bags, each key is in a bag once, and what is stored keeps its value and its
place; a key that is not there is stored. A merge puts the entries of the second bag behind those of
the first, as far as the first lacks their keys; so a value is found in the first bag that has the key,
and merging is associative and idempotent, with the empty bag, or the missing one, as its unit. The
metadata of a resolved term therefore comes from the term first, then from its target, then from the
choice of a variant. -/
theorem history_firstWrite (history : List Operation) :
    (∀ bag ∈ run history, (bag.entries.map Prod.fst).Nodup ∧ Metadata.empty.merge bag = bag ∧
      ∀ first : Metadata, (first.merge bag).entries =
        first.entries ++ bag.entries.filter fun entry => !first.contains entry.1) ∧
    (∀ (later : List Operation) (slot : Nat) (bag : Metadata), (run history)[slot]? = some bag →
      ∃ grown, (run (history ++ later))[slot]? = some grown ∧ bag.Grows grown) ∧
    (∀ (bag : Metadata) (key : String) (scalar : Scalar) (value : Value) (other : String),
      (bag.insert key scalar).get? other =
        (bag.get? other).or (if other = key then some scalar else none) ∧
      (bag.insertValue key value).get? other =
        (bag.get? other).or (if other = key then value.scalar? else none)) ∧
    (∀ first second third : Metadata,
      (∀ key, (first.merge second).get? key = (first.get? key).or (second.get? key)) ∧
      (first.merge second).merge third = first.merge (second.merge third) ∧
      first.merge first = first ∧ first.merge .empty = first) ∧
    (∀ first second third : Option Metadata,
      Metadata.mergeOptional (Metadata.mergeOptional first second) third =
        Metadata.mergeOptional first (Metadata.mergeOptional second third) ∧
      Metadata.mergeOptional none first = first ∧ Metadata.mergeOptional first none = first) ∧
    ∀ (context : Context m) (term : Term) (found : Message) (piece : Piece),
      context.lookup (term.place context).resource (term.place context).path = some found →
      CanEnd (context.resolvePart (.term term)) (.ok piece) →
      ∃ depth notes, context.remaining = depth + 1 ∧ found.ChoiceNotes (descent depth) { context with
          scope := term.scope context.scope
          resource := (term.place context).resource
          callStack := context.callStack ++ [(term.place context).key] } notes ∧
        ∀ key, piece.metadata.get? key =
          ((term.metadata.bind (·.get? key)).or (found.metadata.bind (·.get? key))).or
            (notes.bind (·.get? key)) := by
  refine ⟨fun bag _ => ?_, ?_, fun bag key scalar value other => ?_,
    fun first second third => ?_, fun first second third => ?_, ?_⟩
  · exact ⟨bag.distinct, bag.empty_merge, fun first => first.entries_insertAll bag.distinct⟩
  · intro later slot bag there
    exact Metadata.run_grows there later
  · exact ⟨bag.get?_insert key scalar other, bag.get?_insertValue key value other⟩
  · exact ⟨first.get?_merge second, first.merge_assoc second third, first.merge_self, first.merge_empty⟩
  · exact ⟨Metadata.mergeOptional_assoc first second third, rfl, Metadata.mergeOptional_none first⟩
  · intro context term found piece there resolved
    exact get?_metadata_of_term there resolved

/-- A bag that is written again after it was merged, and a term that says less of a key than its target
and the choice there. -/
theorem history_firstWrite_greeting :
    let history : List Operation := [.create, .insert 0 "source" (.text "term"), .create,
      .insert 1 "source" (.text "function"), .insertValue 1 "kind" (.text "number"), .merge 0 1]
    let later : List Operation := [.insert 0 "source" (.bool true), .insertValue 0 "kind" (.bool true)]
    let merged : Metadata := ⟨[("source", .text "term"), ("kind", .text "number")], by decide⟩
    let own : Metadata := ⟨[("kind", .text "term")], by decide⟩
    let outer : Metadata := ⟨[("kind", .text "message"), ("source", .text "target")],
      by decide⟩
    let greeting : Message := { body := .select ⟨[], [⟨.literal "x" none, none⟩],
      [⟨[.wildcard], .ofParts [.literal "Hello" none]⟩]⟩, metadata := some outer }
    let context : Context Id :=
      ⟨[], .empty, fun _ _ => some greeting, .ofPairs [], "default", [], 1⟩
    let term : Term := ⟨none, [.literal "greeting" none], [], some own⟩
    (run history)[2]? = some merged ∧ Metadata.empty.merge merged = merged ∧
    (∃ grown, (run (history ++ later))[0]? = some grown ∧
      Metadata.Grows ⟨[("source", .text "term")], by decide⟩ grown) ∧
    ∃ piece, CanEnd (context.resolvePart (.term term)) (.ok piece) ∧
      piece.metadata.get? "kind" = some (.text "term") ∧
      piece.metadata.get? "source" = some (.text "target") := by
  intro history later merged own outer greeting context term
  have stored : (run history)[2]? = some merged := by rfl
  have first : (run history)[0]? = some ⟨[("source", .text "term")], by decide⟩ := by rfl
  obtain ⟨bags, grows, -, -, -, terms⟩ := history_firstWrite (m := Id) history
  obtain ⟨piece, resolved⟩ : ∃ piece, CanEnd (context.resolvePart (.term term)) (.ok piece) :=
    ⟨_, rfl⟩
  obtain ⟨depth, notes, -, -, values⟩ := terms context term greeting piece rfl resolved
  refine ⟨stored, (bags merged (List.mem_of_getElem? stored)).2.1, grows later 0 _ first,
    piece, resolved, values "kind", values "source"⟩

end terms

end Phrasebook
