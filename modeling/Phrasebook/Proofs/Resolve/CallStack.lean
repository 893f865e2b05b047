import Phrasebook.Proofs.Resolve.Following

namespace Phrasebook

section bodies

variable [Monad m] [LawfulMonad m] [MonadAttach m] [LawfulMonadAttach m]
  {descend other : Descent m} {context : Context m}

private theorem resolveBody_congr {message : Message}
    (same : ∀ term found, Resolves descend context message (.term term) →
      context.lookup (term.place context).resource (term.place context).path = some found →
      descend context (term.place context).resource (term.place context).path
          (term.scope context.scope) found =
        other context (term.place context).resource (term.place context).path
          (term.scope context.scope) found) :
    resolveBody descend context message = resolveBody other context message := by
  have follows (part : Part) (resolved : Resolves descend context message part) :
      part.Follows (fun _ => False) descend other context context := by
    refine ⟨(Context.Alike.refl context).on part.paths, ?_⟩
    rintro term rfl
    simp only [termPiece]
    split
    · exact .same
    · next found there => exact .of_eq (congrArg (· >>= _) (same term found resolved there))
  unfold resolveBody
  cases body : message.body with
  | pattern node =>
    have pieces := partPieces_follows fun part member => follows part (.pattern body member)
    exact congrArg (· >>= _) pieces.eq
  | select node =>
    have values : selectorValues descend context node.selectors =
        selectorValues other context node.selectors := by
      refine (selectorValues_follows fun part member => ?_).eq
      obtain ⟨selector, listed, rfl⟩ := List.mem_map.mp member
      exact follows _ (.selector body listed)
    have choices : resolveSelect descend context node = resolveSelect other context node :=
      congrArg (· >>= _) values
    simp only [← choices]
    refine bind_congr_of_canEnd fun selection chosen => ?_
    cases value : selection.pattern with
    | none => rfl
    | some pattern =>
      have pieces := partPieces_follows fun part member => follows part (.variant body chosen value member)
      exact congrArg (· >>= _) pieces.eq

end bodies

section coverage

variable [Monad m]

/-- The way into terms that resolves bodies only where a condition holds, and does something else where
it does not. -/
def descentWhere (condition : Context m → Message → Bool) (otherwise : Resolution m ResolvedBody) :
    Nat → Descent m
  | 0 => fun context _ _ _ _ => throw (.maxDepthExceeded context.maxDepth)
  | depth + 1 => fun context resource path scope message => do
    let inner ← ExceptT.mk (pure (context.enter resource path scope))
    if condition inner message then resolveBody (descentWhere condition otherwise depth) inner message
    else otherwise

/-- The pieces of a message, where the bodies of nested ones are resolved under a condition. -/
def Context.resolveWhere (context : Context m) (condition : Context m → Message → Bool)
    (otherwise : Resolution m ResolvedBody) (message : Message) : Resolution m (List Piece) :=
  message.wrapped <$> resolveBody (descentWhere condition otherwise context.remaining) context message

variable [LawfulMonad m] [MonadAttach m] [LawfulMonadAttach m] {outer context : Context m}
  {start message : Message} {targets : List Target}

/-- The induction is on the terms that may still be nested: the context of each target is reached. -/
theorem Reaches.resolveBody_where {condition : Context m → Message → Bool}
    {otherwise : Resolution m ResolvedBody} (reached : Reaches outer start targets context message)
    (holds : ∀ targets context message, Reaches outer start targets context message →
      condition context message = true) :
    resolveBody (descentWhere condition otherwise context.remaining) context message =
      resolveBody (descent context.remaining) context message := by
  generalize size : context.remaining = depth
  induction depth generalizing targets context message with
  | zero => rfl
  | succ depth ih =>
    symm
    refine resolveBody_congr fun term found resolved there => ?_
    have refers : Refers context message term found := ⟨size ▸ resolved, there⟩
    refine bind_congr_of_canEnd fun inner entry => ?_
    have entered : context.enter (term.place context).resource (term.place context).path
        (term.scope context.scope) = .ok inner := (eq_of_canEnd_mk entry).symm
    have further := reached.enter refers (by omega) entered
    rw [if_pos (holds _ _ _ further)]
    exact (ih further (Context.remaining_of_enter entered size)).symm

private theorem resolveWhere_eq {condition : Context m → Message → Bool}
    (holds : ∀ targets context message, Reaches outer start targets context message →
      condition context message = true) (otherwise : Resolution m ResolvedBody) :
    outer.resolveWhere condition otherwise start = outer.resolve start := by
  rw [Context.resolve_eq, Context.resolveWhere, Reaches.start.resolveBody_where holds]

end coverage

section chains

variable [Monad m] [MonadAttach m] {outer context : Context m} {start message : Message}
  {targets : List Target}

namespace Reaches

theorem kept (reached : Reaches outer start targets context message) :
    context.lookup = outer.lookup ∧ context.maxDepth = outer.maxDepth := by
  induction reached with
  | start => exact ⟨rfl, rfl⟩
  | enter reached refers room entered ih =>
    obtain ⟨-, rfl⟩ := Context.enter_eq_ok entered
    exact ih

private theorem length_callStack_le (reached : Reaches outer start targets context message)
    (within : outer.callStack.length ≤ outer.maxDepth) : context.callStack.length ≤ outer.maxDepth := by
  cases reached with
  | start => exact within
  | enter reached refers room entered =>
    obtain ⟨-, rfl⟩ := Context.enter_eq_ok entered
    rw [Context.remaining, Context.depth, reached.kept.2] at room
    rw [List.length_append, List.length_singleton]
    omega

private theorem there {place : Target} (reached : Reaches outer start (targets ++ [place]) context message) :
    outer.lookup place.resource place.path = some message := by
  generalize whole : targets ++ [place] = all at reached
  cases reached with
  | start => exact absurd whole (by simp)
  | enter reached refers room entered =>
    obtain ⟨-, last⟩ := List.append_inj' whole rfl
    obtain rfl := List.singleton_inj.mp last
    exact reached.kept.1 ▸ refers.there

/-- A target that follows another one is that of a term in the message there. The induction is on the
targets behind the two. -/
theorem exists_refers {before after : List Target} {place next : Target}
    (reached : Reaches outer start targets context message)
    (split : targets = before ++ place :: next :: after) :
    ∃ inner nested term found, Reaches outer start (before ++ [place]) inner nested ∧
      Refers inner nested term found ∧ term.place inner = next := by
  induction reached generalizing after with
  | start => exact absurd split (by simp)
  | @enter targets context message term found inner reached refers room entered ih =>
    rcases List.eq_nil_or_concat after with rfl | ⟨after, last, rfl⟩
    · have pair : targets ++ [term.place context] = (before ++ [place]) ++ [next] := by simpa using split
      obtain ⟨rfl, same⟩ := List.append_inj' pair rfl
      exact ⟨context, message, term, found, reached, refers, List.singleton_inj.mp same⟩
    · have longer : targets ++ [term.place context] = (before ++ place :: next :: after) ++ [last] := by
        simpa using split
      exact ih (List.append_inj' longer rfl).1

end Reaches

variable [LawfulMonad m] [LawfulMonadAttach m]

/-- From an empty call stack, bodies are resolved in the contexts that are reached and in no other ones.
There the call stack has no key twice and is within the limit, and any two keys in a row are those of a
message and of the target of a term that is resolved for this message. A reported cycle is a row of
different keys with one of them again behind it, and not longer than the limit. -/
theorem callStack_wellFormed (empty : outer.callStack = []) (start : Message) :
    (∀ (condition : Context m → Message → Bool) (otherwise : Resolution m ResolvedBody),
      (∀ targets context message, Reaches outer start targets context message →
        condition context message = true) →
      outer.resolveWhere condition otherwise start = outer.resolve start) ∧
    (∀ targets context message, Reaches outer start targets context message →
      context.callStack.Nodup ∧ context.callStack.length ≤ outer.maxDepth ∧
      ∀ before key next after, context.callStack = before ++ key :: next :: after →
        ∃ places place inner nested term found,
          before = places.map Target.key ∧ key = place.key ∧
          outer.lookup place.resource place.path = some nested ∧
          Reaches outer start (places ++ [place]) inner nested ∧
          Refers inner nested term found ∧ next = (term.place inner).key) ∧
    ∀ chain, CanEnd (outer.resolve start) (.error (.cyclicReference chain)) →
      2 ≤ chain.length ∧ chain.length ≤ outer.maxDepth ∧
      ∃ others last, chain = others ++ [last] ∧ others.Nodup ∧ others.count last = 1 := by
  have distinct : outer.callStack.Nodup := empty ▸ List.nodup_nil
  refine ⟨fun condition otherwise holds => resolveWhere_eq holds otherwise, ?_, ?_⟩
  · intro targets context message reached
    refine ⟨reached.nodup_callStack distinct, reached.length_callStack_le (by simp [empty]), ?_⟩
    intro before key next after split
    rw [reached.callStack_eq, empty, List.nil_append] at split
    obtain ⟨places, others, rfl, rfl, keys⟩ := List.map_eq_append_iff.mp split
    obtain ⟨place, others, rfl, rfl, behind⟩ := List.map_eq_cons_iff.mp keys
    obtain ⟨last, rest, rfl, rfl, -⟩ := List.map_eq_cons_iff.mp behind
    obtain ⟨inner, nested, term, found, there, refers, rfl⟩ := reached.exists_refers rfl
    exact ⟨places, place, inner, nested, term, found, rfl, rfl, there.there, there, refers, rfl⟩
  · intro chain ends
    obtain ⟨targets, context, message, term, found, reached, refers, rejects⟩ :=
      exists_rejects .start (resolve_failed ends)
    cases rejects with
    | cycle room present =>
      have nodup := reached.nodup_callStack distinct
      have positive := List.length_pos_of_mem present
      rw [Context.remaining, Context.depth, reached.kept.2] at room
      rw [List.length_append, List.length_singleton]
      refine ⟨by omega, by omega, _, _, rfl, nodup, ?_⟩
      exact List.count_eq_one_of_mem nodup present

/-- Two messages that refer to each other, with a limit that the chain comes up to. -/
theorem callStack_wellFormed_circle :
    let stored := (Catalog.empty.insert "default" ["a"] (.reference ["b"])).insert "default" ["b"]
      (.reference ["a"])
    let outer : Context Id := ⟨[], .empty, stored.get?, .empty, "default", [], 3⟩
    let chain := ["default::a", "default::b", "default::a"]
    outer.callStack = [] ∧
    CanEnd (outer.resolve (.reference ["a"])) (.error (.cyclicReference chain)) ∧
    (2 ≤ chain.length ∧ chain.length ≤ outer.maxDepth ∧
      ∃ others last, chain = others ++ [last] ∧ others.Nodup ∧ others.count last = 1) ∧
    ∃ context targets, Reaches outer (.reference ["a"]) targets context (.reference ["a"]) ∧
      context.callStack = ["default::a", "default::b"] ∧ context.callStack.Nodup ∧
      context.callStack.length ≤ outer.maxDepth := by
  intro stored outer chain
  have empty : outer.callStack = [] := rfl
  obtain ⟨-, contexts, cycles⟩ := callStack_wellFormed empty (.reference ["a"])
  have ends : CanEnd (outer.resolve (.reference ["a"])) (.error (.cyclicReference chain)) := rfl
  let term (name : String) : Term := ⟨none, [.literal name none], [], none⟩
  have outward : Refers outer (.reference ["a"]) (term "a") (.reference ["b"]) :=
    ⟨.pattern rfl (.head _), rfl⟩
  let inner : Context Id := { outer with callStack := ["default::a"] }
  have first : Reaches outer (.reference ["a"]) _ inner (.reference ["b"]) :=
    .enter .start outward (by decide) rfl
  have inward : Refers inner (.reference ["b"]) (term "b") (.reference ["a"]) :=
    ⟨.pattern rfl (.head _), rfl⟩
  have second := Reaches.enter first inward (by decide) rfl
  obtain ⟨distinct, within, -⟩ := contexts _ _ _ second
  exact ⟨empty, ends, cycles chain ends, _, _, second, rfl, distinct, within⟩

end chains

end Phrasebook
