import Phrasebook.Proofs.Grammar.WellFormed
import Phrasebook.Proofs.Resolve.Agreement
import Phrasebook.Proofs.Resolve.Choice
import Phrasebook.Proofs.Resolve.Nesting

/-!
Two resolutions of one message, in contexts that may differ in the terms around it and in the limit
on these. Both do the same until one of them stops with an error that the other may not have: with a
higher limit a message resolves as before, unless it failed by the limit. Without terms nothing stops
them, and only what the variables of the message come to has to be the same.
-/

namespace Phrasebook

namespace ResolveError

/-- A term refers to a message that is being resolved. -/
def IsCycle (error : ResolveError) : Prop := ∃ chain, error = .cyclicReference chain

/-- More terms are nested than the limit lets be. -/
def IsExceeded (error : ResolveError) : Prop := ∃ limit, error = .maxDepthExceeded limit

end ResolveError

section following

variable [Monad m]

/-- The first resolution does what the second does, call by call, unless it stops before that with one
of the given errors. -/
inductive Follows {α : Type} (stops : ResolveError → Prop) :
    Resolution m α → Resolution m α → Prop
  | same : Follows stops resolution resolution
  | stop (stopped : stops error) : Follows stops (throw error) resolution
  | call (effect : m β) {first second : β → Resolution m α}
      (each : ∀ value, Follows stops (first value) (second value)) :
      Follows stops (ExceptT.lift effect >>= first) (ExceptT.lift effect >>= second)

namespace Follows

variable {stops : ResolveError → Prop}

theorem of_eq {first second : Resolution m α} (same : first = second) : Follows stops first second :=
  same ▸ .same

theorem eq {first second : Resolution m α} (following : Follows (fun _ => False) first second) :
    first = second := by
  induction following with
  | same => rfl
  | stop stopped => exact stopped.elim
  | call effect each ih => rw [funext ih]

variable [LawfulMonad m]

private theorem eq_lift_bind (resolution : Resolution m α) :
    resolution = (ExceptT.lift resolution.run >>= fun
      | .ok value => pure value
      | .error error => throw error) := by
  apply ExceptT.ext
  rw [ExceptT.run_bind_lift]
  calc resolution.run
    _ = resolution.run >>= pure := (bind_pure _).symm
    _ = _ := bind_congr fun outcome => by cases outcome <;> rfl

/-- Sequences follow each other if their steps do. The induction is on how the first steps do. -/
theorem bind {first second : Resolution m α} {next other : α → Resolution m β}
    (start : Follows stops first second) (rest : ∀ value, Follows stops (next value) (other value)) :
    Follows stops (first >>= next) (second >>= other) := by
  induction start with
  | @same resolution =>
    -- What comes next is compared only where the first step has a value.
    rw [eq_lift_bind resolution, bind_assoc, bind_assoc]
    refine .call _ fun outcome => ?_
    cases outcome with
    | ok value => simpa only [pure_bind] using rest value
    | error error => exact .of_eq (by rw [throw_bind, throw_bind])
  | stop stopped =>
    rw [throw_bind]
    exact .stop stopped
  | call effect each ih =>
    rw [bind_assoc, bind_assoc]
    exact .call effect ih

/-- Functions without effects leave two cases: the first resolution is the second, or it stops. -/
theorem eq_or_throw {first second : Resolution Id α} (following : Follows stops first second) :
    first = second ∨ ∃ error, stops error ∧ first = throw error := by
  induction following with
  | same => exact .inl rfl
  | stop stopped => exact .inr ⟨_, stopped, rfl⟩
  | call effect each ih => exact ih effect

end Follows

end following

section congruence

variable [Monad m] [LawfulMonad m] {stops : ResolveError → Prop} {descend other : Descent m}
  {context context' : Context m}

/-- The targets of terms are entered in the same way from both contexts, until the first stops. -/
def Enters (stops : ResolveError → Prop) (descend other : Descent m) (context context' : Context m) :
    Prop :=
  ∀ resource path scope scope' found, context.lookup resource path = some found →
    scope.Agrees scope' →
    Follows stops (descend context resource path scope found)
      (other context' resource path scope' found)

theorem termPiece_follows (alike : context.Alike context')
    (entry : Enters stops descend other context context') (term : Term) :
    Follows stops (termPiece descend context term) (termPiece other context' term) := by
  simp only [termPiece, ← alike.lookup, ← alike.resource, ← alike.scope.target_eq]
  split
  · exact .same
  · next found there =>
    exact (entry _ _ _ _ found there (alike.scope.term term)).bind fun body => .same

/-- What a part needs to resolve in the same way in both contexts: what is looked up for it is the same,
and if it is a term, the resolution of the term is. -/
structure Part.Follows (stops : ResolveError → Prop) (descend other : Descent m)
    (context context' : Context m) (part : Part) : Prop where
  alike : context.AlikeOn context' part.paths
  term : ∀ term, part = .term term →
    Phrasebook.Follows stops (termPiece descend context term) (termPiece other context' term)

theorem Context.Alike.part_follows (alike : context.Alike context')
    (entry : Enters stops descend other context context') (part : Part) :
    part.Follows stops descend other context context' :=
  ⟨alike.on part.paths, fun term _ => termPiece_follows alike entry term⟩

omit [LawfulMonad m] in
theorem partPiece_follows {part : Part} (follows : part.Follows stops descend other context context') :
    Follows stops (partPiece descend context part) (partPiece other context' part) := by
  obtain ⟨alike, nested⟩ := follows
  cases part with
  | literal text metadata => exact .same
  | «variable» path metadata =>
    exact .of_eq (congrArg pure (alike.scope.variablePiece_eq metadata))
  | call call => exact .of_eq (congrArg ExceptT.lift alike.callPiece_eq)
  | markup markup => exact .of_eq (congrArg pure alike.markupPiece_eq)
  | term term => exact nested term rfl

theorem partPieces_follows {parts : List Part}
    (follows : ∀ part ∈ parts, part.Follows stops descend other context context') :
    Follows stops (partPieces descend context parts) (partPieces other context' parts) := by
  induction parts with
  | nil => exact .same
  | cons part parts ih =>
    obtain ⟨first, rest⟩ := List.forall_mem_cons.mp follows
    exact (partPiece_follows first).bind fun piece => (ih rest).bind fun pieces => .same

theorem selectorValue_follows {part : Part}
    (follows : part.Follows stops descend other context context') :
    Follows stops (selectorValue descend context part) (selectorValue other context' part) := by
  simp only [selectorValue, ← follows.alike.pluralForms_eq]
  cases part with
  | call call =>
    have called : Follows stops (ExceptT.lift (selectorCall context call) : Resolution m Value)
        (ExceptT.lift (selectorCall context' call)) :=
      .of_eq (congrArg ExceptT.lift follows.alike.selectorCall_eq)
    exact called.bind fun value => .same
  | _ => exact (partPiece_follows follows).bind fun piece => .same

theorem selectorValues_follows {selectors : List Selector}
    (follows : ∀ part ∈ selectors.map Selector.value,
      part.Follows stops descend other context context') :
    Follows stops (selectorValues descend context selectors)
      (selectorValues other context' selectors) := by
  induction selectors with
  | nil => exact .same
  | cons selector selectors ih =>
    obtain ⟨first, rest⟩ := List.forall_mem_cons.mp follows
    exact (selectorValue_follows first).bind fun value => (ih rest).bind fun values => .same

theorem resolveBody_follows_of_parts {message : Message}
    (follows : ∀ part ∈ message.parts, part.Follows stops descend other context context') :
    Follows stops (resolveBody descend context message) (resolveBody other context' message) := by
  unfold Message.parts at follows
  unfold resolveBody
  cases body : message.body with
  | pattern node =>
    rw [body] at follows
    exact (partPieces_follows follows).bind fun pieces => .same
  | select select =>
    rw [body] at follows
    obtain ⟨chooses, shown⟩ := List.forall_mem_append.mp follows
    simp only [resolveSelect, bind_assoc, pure_bind]
    refine (selectorValues_follows chooses).bind fun values => ?_
    cases chosen : (Selection.choose values select.variants).pattern with
    | none => exact .same
    | some pattern =>
      obtain ⟨variant, listed, rfl⟩ := Selection.exists_of_choose chosen
      have parts : ∀ part ∈ variant.value.parts,
          part.Follows stops descend other context context' := fun part member =>
        shown part (List.mem_flatMap.mpr ⟨variant, listed, member⟩)
      exact (partPieces_follows parts).bind fun pieces => .same

/-- Messages resolve in the same way in both contexts if the targets of their terms do. -/
theorem resolveBody_follows (alike : context.Alike context')
    (entry : Enters stops descend other context context') (message : Message) :
    Follows stops (resolveBody descend context message) (resolveBody other context' message) :=
  resolveBody_follows_of_parts fun part _ => alike.part_follows entry part

/-- The variables of a message: those that are parts of its patterns or its selectors, arguments of
functions, or options. -/
def Message.variables (message : Message) : List (List Operand) := message.parts.flatMap Part.paths

/-- Without terms, a message resolves to the same in contexts that are alike on its variables, whatever
else differs between them. -/
theorem resolve_of_alikeOn {message : Message} (plain : message.TermFree)
    (alike : context.AlikeOn context' message.variables) :
    context.resolve message = context'.resolve message := by
  have follows (part : Part) (listed : part ∈ message.parts) :
      part.Follows (fun _ => False) (descent context.remaining) (descent context'.remaining)
        context context' :=
    ⟨⟨alike.locales, alike.library, fun path member =>
        alike.scope path (List.mem_flatMap.mpr ⟨part, listed, member⟩)⟩,
      fun term same => absurd (same ▸ listed) (plain term)⟩
  rw [Context.resolve_eq, Context.resolve_eq]
  exact congrArg _ (resolveBody_follows_of_parts follows).eq

end congruence

section limits

/-- Targets are entered alike where no fewer terms may be nested and no other ones are around, until
the first resolution stops by its limit, unless that is the limit of both, or by a cycle that the second
does not see. The induction is on the terms that may be nested in the first. -/
theorem descent_follows [Monad m] [LawfulMonad m] {stops : ResolveError → Prop} {depth more : Nat}
    {context context' : Context m} (fewer : depth ≤ more)
    (limits : (depth = more ∧ context.maxDepth = context'.maxDepth) ∨
      ∀ limit, stops (.maxDepthExceeded limit))
    (alike : context.Alike context') (around : context'.callStack ⊆ context.callStack)
    (cycles : context'.callStack = context.callStack ∨ ∀ chain, stops (.cyclicReference chain)) :
    Enters stops (descent depth) (descent more) context context' := by
  induction depth generalizing more context context' with
  | zero =>
    intro resource path scope scope' found there agree
    rcases limits with ⟨rfl, limit⟩ | stopped
    · exact .of_eq (by simp only [descent, limit])
    · exact .stop (stopped _)
  | succ depth ih =>
    intro resource path scope scope' found there agree
    obtain ⟨more, rfl⟩ := Nat.exists_eq_add_of_le' (Nat.lt_of_lt_of_le depth.succ_pos fewer)
    by_cases present : Context.key resource path ∈ context.callStack
    · rw [descent_of_mem depth present]
      rcases cycles with same | stopped
      · rw [descent_of_mem more (same ▸ present), same]
        exact .same
      · exact .stop (stopped _)
    · have absent : Context.key resource path ∉ context'.callStack := fun other => present (around other)
      rw [descent_of_notMem depth present, descent_of_notMem more absent]
      have inside := alike.inside agree resource (context.callStack ++ [Context.key resource path])
        (context'.callStack ++ [Context.key resource path])
      refine resolveBody_follows inside (ih (Nat.le_of_succ_le_succ fewer) ?_ inside ?_ ?_) found
      · exact limits.imp_left (And.imp_left Nat.succ.inj)
      · exact List.append_subset.mpr
          ⟨fun _ member => List.mem_append_left _ (around member), List.subset_append_right _ _⟩
      · exact cycles.imp_left fun same => by rw [same]

theorem descent_enters [Monad m] [LawfulMonad m] {stops : ResolveError → Prop} {depth more : Nat}
    {context context' : Context m} (fewer : depth ≤ more)
    (limits : ∀ limit, stops (.maxDepthExceeded limit))
    (alike : context.Alike context') (around : context'.callStack ⊆ context.callStack)
    (cycles : context'.callStack = context.callStack ∨ ∀ chain, stops (.cyclicReference chain)) :
    Enters stops (descent depth) (descent more) context context' :=
  descent_follows fewer (.inr limits) alike around cycles

theorem descent_same [Monad m] [LawfulMonad m] {context context' : Context m}
    (alike : context.Alike context') (around : context.callStack = context'.callStack)
    (limit : context.maxDepth = context'.maxDepth) (depth : Nat) :
    Enters (fun _ => False) (descent depth) (descent depth) context context' :=
  descent_follows (Nat.le_refl depth) (.inl ⟨rfl, limit⟩) alike (around ▸ List.Subset.refl _)
    (.inl around.symm)

/-- A higher limit on nested terms leaves a message as it is, unless it fails by the lower one. -/
theorem resolve_of_limit_le {context : Context Id} {message : Message} {limit : Nat}
    (higher : context.maxDepth ≤ limit)
    (within : ∀ depth, ¬ CanEnd (context.resolve message) (.error (.maxDepthExceeded depth))) :
    { context with maxDepth := limit }.resolve message = context.resolve message := by
  let raised : Context Id := { context with maxDepth := limit }
  have alike : context.Alike raised := ⟨rfl, rfl, rfl, .refl _, rfl⟩
  have fewer : context.remaining ≤ raised.remaining := Nat.sub_le_sub_right higher _
  have entry : Enters ResolveError.IsExceeded (descent context.remaining)
      (descent raised.remaining) context raised :=
    descent_enters fewer (fun depth => ⟨depth, rfl⟩) alike (List.Subset.refl _) (.inl rfl)
  have following : Follows ResolveError.IsExceeded (context.resolve message) (raised.resolve message) :=
    (resolveBody_follows alike entry message).bind fun body => .same
  rcases following.eq_or_throw with same | ⟨error, ⟨depth, rfl⟩, stopped⟩
  · exact same.symm
  · exact absurd (congrArg ExceptT.run stopped) (within depth)

/-- A message that refers to itself is a cycle under every limit that lets it be entered twice. -/
theorem resolve_of_limit_le_cycle :
    let stored := Catalog.empty.insert "default" ["a"] (.reference ["a"])
    let context : Context Id := ⟨[], .empty, stored.get?, .empty, "default", [], 2⟩
    CanEnd (context.resolve (.reference ["a"]))
      (.error (.cyclicReference ["default::a", "default::a"])) ∧
    { context with maxDepth := 64 }.resolve (.reference ["a"]) = context.resolve (.reference ["a"]) := by
  intro stored context
  have cycle : CanEnd (context.resolve (.reference ["a"]))
      (.error (.cyclicReference ["default::a", "default::a"])) := rfl
  have higher : context.maxDepth ≤ 64 := by decide
  have within (depth) :
      ¬ CanEnd (context.resolve (.reference ["a"])) (.error (.maxDepthExceeded depth)) := by
    intro ends
    cases cycle.symm.trans ends
  exact ⟨cycle, resolve_of_limit_le higher within⟩

end limits

end Phrasebook
