import Phrasebook.Proofs.Resolve.Following

namespace Phrasebook

namespace Catalog

/-- The places that hold a message. -/
def targets (catalog : Catalog) : List Target :=
  catalog.resources.flatMap fun entry => entry.2.map fun message => ⟨entry.1, message.1⟩

theorem length_targets (catalog : Catalog) : catalog.targets.length = catalog.size := by
  unfold targets size
  induction catalog.resources with
  | nil => rfl
  | cons entry rest ih => simp [ih]

theorem mem_targets {catalog : Catalog} {target : Target} {message : Message}
    (there : catalog.get? target.resource target.path = some message) : target ∈ catalog.targets := by
  obtain ⟨messages, owner, found⟩ := Option.bind_eq_some_iff.mp there
  refine List.mem_flatMap.mpr ⟨(target.resource, messages), Keyed.mem_of_lookup owner, ?_⟩
  exact List.mem_map.mpr ⟨(target.path, message), Keyed.mem_of_lookup found, rfl⟩

end Catalog

namespace Context

/-- The call stack holds keys of stored messages, none twice, and the limit is above the number of
keys. -/
structure Roomy (keys : List String) (context : Context m) : Prop where
  distinct : context.callStack.Nodup
  stored : context.callStack ⊆ keys
  known : ∀ resource path found, context.lookup resource path = some found → key resource path ∈ keys
  limit : keys.length < context.maxDepth

namespace Roomy

variable {keys : List String} {context : Context m}

/-- By the pigeonhole principle one more term may be nested. -/
theorem remaining_pos (roomy : context.Roomy keys) : 0 < context.remaining := by
  have bound : context.callStack.length ≤ keys.length :=
    roomy.distinct.length_le_of_subset roomy.stored
  exact Nat.sub_pos_of_lt (Nat.lt_of_le_of_lt bound roomy.limit)

theorem enter {resource : String} {path : List String} {found : Message} (roomy : context.Roomy keys)
    (there : context.lookup resource path = some found)
    (fresh : key resource path ∉ context.callStack) (scope : Scope) :
    Roomy keys { context with
      scope, resource, callStack := context.callStack ++ [key resource path] } where
  distinct := by simpa only [List.concat_eq_append] using List.Nodup.concat fresh roomy.distinct
  stored := List.append_subset.mpr
    ⟨roomy.stored, List.cons_subset.mpr ⟨roomy.known resource path found there, List.nil_subset _⟩⟩
  known := roomy.known
  limit := roomy.limit

end Roomy

end Context

section guard

variable [Monad m]

private theorem Reaches.roomy [MonadAttach m] {keys : List String} {outer context : Context m}
    {start message : Message} {targets : List Target}
    (reached : Reaches outer start targets context message) (roomy : outer.Roomy keys) :
    context.Roomy keys := by
  induction reached with
  | start => exact roomy
  | enter reached refers room entered ih =>
    obtain ⟨fresh, rfl⟩ := Context.enter_eq_ok entered
    exact ih.enter refers.there fresh _

/-- The way into terms that enters every target, where `depth` more of them may be nested. -/
def unguarded : Nat → Descent m
  | 0 => fun context _ _ _ _ => throw (.maxDepthExceeded context.maxDepth)
  | depth + 1 => fun context resource _ scope message =>
    resolveBody (unguarded depth) { context with scope, resource } message

/-- The pieces of a message where terms may nest in a circle. -/
def Context.resolveUnguarded (context : Context m) (depth : Nat) (message : Message) :
    Resolution m (List Piece) := do
  let body ← resolveBody (unguarded depth) context message
  match Metadata.mergeOptional message.metadata body.selection with
  | some bag => pure [.message body.pieces bag]
  | none => pure body.pieces

variable [LawfulMonad m] {keys : List String} {context context' : Context m}

/-- With room for every target, resolution goes where it goes without the guard, until it finds a
cycle. The induction is on the terms that may still be nested; room is what each entry keeps. -/
theorem resolveBody_follows_unguarded {more : Nat} (roomy : context.Roomy keys)
    (fewer : context.remaining ≤ more) (alike : context.Alike context') (message : Message) :
    Follows ResolveError.IsCycle (resolveBody (descent context.remaining) context message)
      (resolveBody (unguarded more) context' message) := by
  generalize size : context.remaining = depth at fewer
  induction depth generalizing more context context' message with
  | zero => exact absurd size (Nat.ne_of_gt roomy.remaining_pos)
  | succ depth ih =>
    apply resolveBody_follows alike
    intro resource path scope scope' found there agree
    obtain ⟨more, rfl⟩ := Nat.exists_eq_add_of_le' (Nat.lt_of_lt_of_le depth.succ_pos fewer)
    by_cases present : Context.key resource path ∈ context.callStack
    · rw [descent_of_mem depth present]
      exact .stop ⟨_, rfl⟩
    · let inner : Context m := { context with
        scope, resource, callStack := context.callStack ++ [Context.key resource path] }
      -- Without the guard the call stack stays as it is: nothing reads it.
      let inner' : Context m := { context' with scope := scope', resource }
      have alike' : inner.Alike inner' := alike.inside agree ..
      have smaller : inner.remaining = depth := by
        simp only [Context.remaining, Context.depth, inner, List.length_append,
          List.length_singleton] at size ⊢
        omega
      rw [descent_of_notMem depth present]
      exact ih (roomy.enter there present scope) alike' found smaller (Nat.le_of_succ_le_succ fewer)

/-- Where there is room for every target, only a cycle makes a message fail. -/
theorem isCycle_of_roomy [MonadAttach m] [LawfulMonadAttach m] {message : Message}
    {error : ResolveError} (roomy : context.Roomy keys)
    (ends : CanEnd (context.resolve message) (.error error)) : error.IsCycle := by
  obtain ⟨targets, inner, nested, term, found, reached, refers, rejects⟩ :=
    exists_rejects .start (resolve_failed ends)
  cases rejects with
  | depth full => exact absurd full (Nat.ne_of_gt (reached.roomy roomy).remaining_pos)
  | cycle room present => exact ⟨_, rfl⟩

theorem resolve_follows_unguarded {depth : Nat} (roomy : context.Roomy keys)
    (fewer : context.remaining ≤ depth) (message : Message) :
    Follows ResolveError.IsCycle (context.resolve message) (context.resolveUnguarded depth message) :=
  (resolveBody_follows_unguarded roomy fewer (.refl context) message).bind fun _ => .same

end guard

section formatters

theorem Formatter.roomy_context [Monad m] {formatter : Formatter m}
    (larger : formatter.catalog.size < formatter.maxDepth) (scope : Scope) :
    (formatter.context scope).Roomy (formatter.catalog.targets.map Target.key) where
  distinct := List.nodup_nil
  stored := List.nil_subset _
  known resource path found there :=
    List.mem_map.mpr ⟨⟨resource, path⟩, Catalog.mem_targets there, rfl⟩
  limit := by rwa [List.length_map, Catalog.length_targets]

/-- With a limit above the number of stored messages it is never the limit that fails. Resolution goes
where it goes without the guard, and a cycle is all that it stops for: so that is what terms which
nest without end come to. -/
theorem fails_by_cycle_of_size_lt [Monad m] [LawfulMonad m] [MonadAttach m] [LawfulMonadAttach m]
    {formatter : Formatter m} (larger : formatter.catalog.size < formatter.maxDepth)
    (message : Message) (scope : Scope) :
    (∀ error, CanEnd (formatter.pieces message scope) (.error error) → error.IsCycle) ∧
    ∀ depth, formatter.maxDepth ≤ depth →
      Follows ResolveError.IsCycle (formatter.pieces message scope)
        ((formatter.context scope).resolveUnguarded depth message) := by
  have roomy := formatter.roomy_context larger scope
  exact ⟨fun error ends => isCycle_of_roomy roomy ends,
    fun depth fewer => resolve_follows_unguarded roomy fewer message⟩

/-- Terms that nest without end, with functions that have no effects: however many of them may be
nested, they do not come to pieces without the guard, and are a cycle with it. -/
theorem exists_cycle_of_endless {formatter : Formatter Id} {message : Message} {scope : Scope}
    (larger : formatter.catalog.size < formatter.maxDepth)
    (endless : ∀ depth pieces,
      ¬ CanEnd ((formatter.context scope).resolveUnguarded depth message) (.ok pieces)) :
    ∃ chain, CanEnd (formatter.pieces message scope) (.error (.cyclicReference chain)) := by
  have roomy := formatter.roomy_context larger scope
  rcases (resolve_follows_unguarded roomy (Nat.le_refl _) message).eq_or_throw with
    same | ⟨error, ⟨chain, rfl⟩, stopped⟩
  · have ends : CanEnd (formatter.pieces message scope) (formatter.pieces message scope).run.run := rfl
    cases outcome : (formatter.pieces message scope).run.run with
    | ok pieces =>
      have free := endless (formatter.context scope).remaining pieces
      rw [← same] at free
      exact absurd (outcome ▸ ends) free
    | error error =>
      obtain ⟨chain, rfl⟩ := isCycle_of_roomy roomy (outcome ▸ ends)
      exact ⟨chain, outcome⟩
  · exact ⟨chain, congrArg ExceptT.run stopped⟩

/-- A message that refers to itself, with a limit just above the size of the catalog. -/
theorem fails_by_cycle_of_size_lt_self :
    let stored := Catalog.empty.insert "default" ["a"] (.reference ["a"])
    let formatter : Formatter Id := ⟨[], .empty, stored, "default", 2⟩
    stored.size < formatter.maxDepth ∧
    CanEnd (formatter.pieces (.reference ["a"]) .empty)
      (.error (.cyclicReference ["default::a", "default::a"])) ∧
    ∀ error, CanEnd (formatter.pieces (.reference ["a"]) .empty) (.error error) → error.IsCycle := by
  intro stored formatter
  have larger : stored.size < formatter.maxDepth := by decide
  exact ⟨larger, rfl, (fails_by_cycle_of_size_lt larger (.reference ["a"]) .empty).1⟩

/-- A limit of the size itself is too low: it is tested before the cycle is. -/
example :
    let stored := Catalog.empty.insert "default" ["a"] (.reference ["a"])
    let formatter : Formatter Id := ⟨[], .empty, stored, "default", 1⟩
    CanEnd (formatter.pieces (.reference ["a"]) .empty) (.error (.maxDepthExceeded 1)) := rfl

end formatters

end Phrasebook
