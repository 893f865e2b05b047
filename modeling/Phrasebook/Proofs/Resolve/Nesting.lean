import Mathlib.Data.List.Nodup
import Phrasebook.Formatter
import Phrasebook.Proofs.Resolve.Outcome

namespace Phrasebook

/-- A place where a message is looked up. -/
structure Target where
  resource : String
  path : List String
  deriving DecidableEq, Repr

def Target.key (target : Target) : String := Context.key target.resource target.path

/-- The place that a term refers to from a context. -/
def Term.place (term : Term) (context : Context m) : Target :=
  ⟨term.resource.getD context.resource, term.target context.scope⟩

namespace Context

theorem enter_eq_ok {context inner : Context m} {target : Target} {scope : Scope}
    (entered : context.enter target.resource target.path scope = .ok inner) :
    target.key ∉ context.callStack ∧ inner = { context with
      scope, resource := target.resource, callStack := context.callStack ++ [target.key] } := by
  simp only [enter] at entered
  split at entered
  · cases entered
  · next fresh => exact ⟨fresh, (Except.ok.inj entered).symm⟩

private theorem enter_eq_error {context : Context m} {target : Target} {scope : Scope} {error : ResolveError}
    (rejected : context.enter target.resource target.path scope = .error error) :
    target.key ∈ context.callStack ∧
      error = .cyclicReference (context.callStack ++ [target.key]) := by
  simp only [enter] at rejected
  split at rejected
  · next present => exact ⟨present, (Except.error.inj rejected).symm⟩
  · cases rejected

theorem remaining_of_enter {context inner : Context m} {target : Target} {scope : Scope} {depth : Nat}
    (entered : context.enter target.resource target.path scope = .ok inner)
    (size : context.remaining = depth + 1) : inner.remaining = depth := by
  obtain ⟨-, rfl⟩ := enter_eq_ok entered
  simp only [remaining, Context.depth, List.length_append, List.length_singleton] at size ⊢
  omega

end Context

section entry

variable [Monad m] [LawfulMonad m] {context : Context m} {resource : String} {path : List String}

theorem descent_of_mem (depth : Nat) (present : Context.key resource path ∈ context.callStack)
    (scope : Scope) (message : Message) :
    descent (depth + 1) context resource path scope message =
      throw (.cyclicReference (context.callStack ++ [Context.key resource path])) := by
  have rejected : context.enter resource path scope =
      .error (.cyclicReference (context.callStack ++ [Context.key resource path])) := if_pos present
  simp only [descent, rejected]
  exact throw_bind _ _

theorem descent_of_notMem (depth : Nat) (fresh : Context.key resource path ∉ context.callStack)
    (scope : Scope) (message : Message) :
    descent (depth + 1) context resource path scope message =
      resolveBody (descent depth) { context with
        scope, resource, callStack := context.callStack ++ [Context.key resource path] } message := by
  have entered : context.enter resource path scope = .ok { context with
      scope, resource, callStack := context.callStack ++ [Context.key resource path] } := if_neg fresh
  simp only [descent, entered]
  exact pure_bind _ _

end entry

section nesting

variable [Monad m] [MonadAttach m]

/-- A term of a message is resolved in a context, and there is a message at its place. -/
structure Refers (context : Context m) (message : Message) (term : Term) (found : Message) : Prop where
  resolved : Resolves (descent context.remaining) context message (.term term)
  there : context.lookup (term.place context).resource (term.place context).path = some found

/-- The messages that are resolved for a message, and the contexts for it, by the targets that were
entered on the way. -/
inductive Reaches (outer : Context m) (start : Message) : List Target → Context m → Message → Prop
  | start : Reaches outer start [] outer start
  | enter {inner : Context m} (reached : Reaches outer start targets context message)
      (refers : Refers context message term found) (room : 0 < context.remaining)
      (entered : context.enter (term.place context).resource (term.place context).path
        (term.scope context.scope) = .ok inner) :
      Reaches outer start (targets ++ [term.place context]) inner found

namespace Reaches

variable {outer context : Context m} {start message : Message} {targets : List Target}

/-- The call stack holds the keys of the targets that were entered. -/
theorem callStack_eq (reached : Reaches outer start targets context message) :
    context.callStack = outer.callStack ++ targets.map Target.key := by
  induction reached with
  | start => simp
  | enter reached refers room entered ih =>
    obtain ⟨-, rfl⟩ := Context.enter_eq_ok entered
    simp [ih]

/-- No key comes on the call stack twice. -/
theorem nodup_callStack (reached : Reaches outer start targets context message)
    (distinct : outer.callStack.Nodup) : context.callStack.Nodup := by
  induction reached with
  | start => exact distinct
  | enter reached refers room entered ih =>
    obtain ⟨fresh, rfl⟩ := Context.enter_eq_ok entered
    rw [List.nodup_append]
    refine ⟨ih, by simp, ?_⟩
    intro key member other last same
    rw [List.mem_singleton] at last
    exact fresh (last ▸ same ▸ member)

end Reaches

variable [LawfulMonad m] [LawfulMonadAttach m]

/-- Why the entry of a term's target fails. -/
inductive Rejects (context : Context m) (target : Target) : ResolveError → Prop
  | depth (full : context.remaining = 0) :
      Rejects context target (.maxDepthExceeded context.maxDepth)
  | cycle (room : 0 < context.remaining) (present : target.key ∈ context.callStack) :
      Rejects context target (.cyclicReference (context.callStack ++ [target.key]))

/-- Where a message fails, it is in the entry of a target from a context that is reached. The
induction is on the number of terms that may still be nested. -/
theorem exists_rejects {outer context : Context m} {start message : Message} {targets : List Target}
    {error : ResolveError} (reached : Reaches outer start targets context message)
    (ends : CanEnd (resolveBody (descent context.remaining) context message) (.error error)) :
    ∃ targets context message term found, Reaches outer start targets context message ∧
      Refers context message term found ∧ Rejects context (term.place context) error := by
  generalize size : context.remaining = depth at ends
  induction depth generalizing targets context message with
  | zero =>
    obtain ⟨part, resolved, failed⟩ := resolveBody_failed ends
    obtain ⟨term, rfl, failed⟩ := partPiece_failed failed
    obtain ⟨found, there, failed⟩ := termPiece_failed failed
    obtain rfl := Except.error.inj (eq_of_canEnd_mk failed)
    exact ⟨targets, context, message, term, found, reached, ⟨size ▸ resolved, there⟩, .depth size⟩
  | succ depth ih =>
    obtain ⟨part, resolved, failed⟩ := resolveBody_failed ends
    obtain ⟨term, rfl, failed⟩ := partPiece_failed failed
    obtain ⟨found, there, failed⟩ := termPiece_failed failed
    have refers : Refers context message term found := ⟨size ▸ resolved, there⟩
    have room : 0 < context.remaining := by omega
    let place := term.place context
    rcases canEnd_bind failed with failed | ⟨inner, entry, failed⟩
    · have rejected : context.enter place.resource place.path (term.scope context.scope) =
          .error error := (eq_of_canEnd_mk failed).symm
      obtain ⟨present, rfl⟩ := Context.enter_eq_error rejected
      exact ⟨targets, context, message, term, found, reached, refers, .cycle room present⟩
    · have entered : context.enter place.resource place.path (term.scope context.scope) =
          .ok inner := (eq_of_canEnd_mk entry).symm
      exact ih (.enter reached refers room entered) (Context.remaining_of_enter entered size) failed

/-- A reported cycle is the chain of the targets that are nested in each other, up to the first one
with the key of an earlier one. No two before it have one key, so it is the place of an earlier one
again exactly if that one is not another place with the same key. -/
theorem cyclicReference_chain {formatter : Formatter m} {message : Message} {scope : Scope}
    {chain : List String}
    (ends : CanEnd (formatter.pieces message scope) (.error (.cyclicReference chain))) :
    ∃ targets context inner term found,
      Reaches (formatter.context scope) message targets context inner ∧
      Refers context inner term found ∧
      chain = (targets ++ [term.place context]).map Target.key ∧
      (targets.map Target.key).Nodup ∧
      ∃ earlier ∈ targets, earlier.key = (term.place context).key ∧
        (¬ (targets ++ [term.place context]).Nodup ↔ earlier = term.place context) := by
  obtain ⟨targets, context, inner, term, found, reached, refers, rejects⟩ :=
    exists_rejects .start (resolve_failed ends)
  cases rejects with
  | cycle room present =>
    have stack : context.callStack = targets.map Target.key := reached.callStack_eq
    have distinct : (targets.map Target.key).Nodup := stack ▸ reached.nodup_callStack List.nodup_nil
    rw [stack] at present
    obtain ⟨earlier, member, same⟩ := List.mem_map.mp present
    refine ⟨targets, context, inner, term, found, reached, refers, by simp [stack], distinct, earlier,
      member, same, ?_⟩
    constructor
    · intro repeated
      by_contra other
      refine repeated (List.nodup_append.mpr ⟨distinct.of_map, by simp, ?_⟩)
      intro target among last only
      rw [List.mem_singleton] at only
      rintro rfl
      exact other (List.inj_on_of_nodup_map distinct member (only ▸ among) same)
    · intro again nodup
      exact (List.nodup_append.mp nodup).2.2 earlier member _ (by simp) again

end nesting

section collisions

/-- The message that is a term for a path, and nothing else. -/
def Message.reference (path : List String) : Message :=
  .ofParts [.term ⟨none, path.map fun segment => .literal segment none, [], none⟩]

/-- Two messages in a row, whose paths differ, but not their keys. -/
def collision : Catalog :=
  (Catalog.empty.insert "default" ["a", "b"] (.reference ["a.b"])).insert "default" ["a.b"]
    (.ofParts [.literal "done" none])

theorem cyclicReference_chain_collision :
    let formatter : Formatter Id := ⟨[], .empty, collision, "default", 64⟩
    let chain := ["default::a.b", "default::a.b"]
    CanEnd (formatter.pieces (.reference ["a", "b"]) .empty) (.error (.cyclicReference chain)) ∧
    ∃ targets context inner term found,
      Reaches (formatter.context .empty) (.reference ["a", "b"]) targets context inner ∧
      Refers context inner term found ∧
      chain = (targets ++ [term.place context]).map Target.key ∧
      (targets.map Target.key).Nodup ∧
      ∃ earlier ∈ targets, earlier.key = (term.place context).key ∧
        (¬ (targets ++ [term.place context]).Nodup ↔ earlier = term.place context) := by
  intro formatter chain
  have ends : CanEnd (formatter.pieces (.reference ["a", "b"]) .empty)
      (.error (.cyclicReference chain)) := rfl
  exact ⟨ends, cyclicReference_chain ends⟩

/-- So a cycle can be reported although the places on the chain are different ones. -/
theorem cyclicReference_without_repetition :
    let formatter : Formatter Id := ⟨[], .empty, collision, "default", 64⟩
    let places : List Target := [⟨"default", ["a", "b"]⟩, ⟨"default", ["a.b"]⟩]
    CanEnd (formatter.pieces (.reference ["a", "b"]) .empty)
      (.error (.cyclicReference (places.map Target.key))) ∧ places.Nodup ∧
    ∃ context inner term found,
      Reaches (formatter.context .empty) (.reference ["a", "b"]) [places[0]] context inner ∧
      Refers context inner term found ∧ term.place context = places[1] := by
  intro formatter places
  refine ⟨rfl, by decide, ?_⟩
  have refers : Refers (formatter.context .empty) (.reference ["a", "b"])
      ⟨none, [.literal "a" none, .literal "b" none], [], none⟩ (.reference ["a.b"]) :=
    ⟨.pattern rfl (.head _), rfl⟩
  have reached := Reaches.enter .start refers (by decide) rfl
  exact ⟨_, _, ⟨none, [.literal "a.b" none], [], none⟩, .ofParts [.literal "done" none], reached,
    ⟨.pattern rfl (.head _), rfl⟩, rfl⟩

end collisions

end Phrasebook
