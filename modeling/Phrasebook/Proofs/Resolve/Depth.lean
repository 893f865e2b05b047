import Phrasebook.Proofs.Resolve.Nesting

/-!
The limit on nested terms, for messages whose terms name their targets by literals. Such terms span a
graph of references that no scope has a part in: a message resolves if no chain of references from it
is longer than the limit, and fails by the limit if one is.
-/

namespace Phrasebook

section decisions

variable [Monad m]

/-- The resolution gives a value, whatever it calls. -/
def Returns (resolution : Resolution m α) : Prop :=
  ∃ value : m α, resolution.run = Except.ok <$> value

/-- The resolution ends with an error, whatever it calls. -/
def Fails (resolution : Resolution m α) (error : ResolveError) : Prop :=
  ∃ effect : m Unit, resolution.run = (fun _ => .error error) <$> effect

/-- A condition tells beforehand whether the resolution gives a value or ends with an error. -/
structure Decides (condition : Prop) (error : ResolveError) (resolution : Resolution m α) : Prop where
  returns : condition → Returns resolution
  fails : ¬ condition → Fails resolution error

variable {error : ResolveError}

theorem Returns.lift (effect : m α) : Returns (ExceptT.lift effect : Resolution m α) := ⟨effect, rfl⟩

theorem Returns.decides {resolution : Resolution m α} {condition : Prop}
    (returned : Returns resolution) (holds : condition) : Decides condition error resolution :=
  ⟨fun _ => returned, fun absent => absurd holds absent⟩

theorem Decides.congr {condition other : Prop} {resolution : Resolution m α}
    (decided : Decides condition error resolution) (same : condition ↔ other) :
    Decides other error resolution :=
  ⟨fun holds => decided.returns (same.mpr holds), fun absent => decided.fails (absent ∘ same.mp)⟩

variable [LawfulMonad m]

theorem Returns.pure (value : α) : Returns (pure value : Resolution m α) :=
  ⟨Pure.pure value, by simp⟩

theorem Returns.bind {first : Resolution m α} {next : α → Resolution m β} (returned : Returns first)
    (rest : ∀ value, Returns (next value)) : Returns (first >>= next) := by
  obtain ⟨effect, run⟩ := returned
  refine ⟨effect >>= fun value => Classical.choose (rest value), ?_⟩
  have later (value) := Classical.choose_spec (rest value)
  simp [ExceptT.run_bind, run, ← later]

theorem Fails.throw (error : ResolveError) : Fails (throw error : Resolution m α) error :=
  ⟨Pure.pure (), by simp⟩

theorem Fails.bind {first : Resolution m α} (next : α → Resolution m β) (failed : Fails first error) :
    Fails (first >>= next) error := by
  obtain ⟨effect, run⟩ := failed
  exact ⟨effect, by simp [ExceptT.run_bind, run]⟩

private theorem Returns.bind_fails {first : Resolution m α} {next : α → Resolution m β}
    (returned : Returns first) (rest : ∀ value, Fails (next value) error) :
    Fails (first >>= next) error := by
  obtain ⟨effect, run⟩ := returned
  refine ⟨effect >>= fun value => Classical.choose (rest value), ?_⟩
  have later (value) := Classical.choose_spec (rest value)
  simp [ExceptT.run_bind, run, ← later]

theorem Decides.bind {condition other : Prop} {first : Resolution m α} {next : α → Resolution m β}
    (decided : Decides condition error first) (rest : ∀ value, Decides other error (next value)) :
    Decides (condition ∧ other) error (first >>= next) := by
  constructor
  · rintro ⟨holds, also⟩
    exact (decided.returns holds).bind fun value => (rest value).returns also
  · intro absent
    by_cases holds : condition
    · exact (decided.returns holds).bind_fails fun value =>
        (rest value).fails fun also => absent ⟨holds, also⟩
    · exact (decided.fails holds).bind next

theorem Decides.bind_returns {condition : Prop} {first : Resolution m α}
    {next : α → Resolution m β} (decided : Decides condition error first)
    (rest : ∀ value, Returns (next value)) : Decides condition error (first >>= next) :=
  (decided.bind fun value => (rest value).decides trivial).congr (by simp)

theorem partPieces_decides {descend : Descent m} {context : Context m} {condition : Part → Prop}
    {parts : List Part}
    (each : ∀ part ∈ parts, Decides (condition part) error (partPiece descend context part)) :
    Decides (∀ part ∈ parts, condition part) error (partPieces descend context parts) := by
  induction parts with
  | nil => exact (Returns.pure []).decides (by simp)
  | cons part parts ih =>
    have first := each part (by simp)
    have rest := ih fun other member => each other (by simp [member])
    refine (first.bind fun piece => rest.bind_returns fun _ => .pure _).congr ?_
    simp

end decisions

section references

/-- The text of a literal. -/
def Operand.text? : Operand → Option String
  | .literal text _ => some text
  | .variable _ _ => none

/-- A pattern whose terms name their targets by literals. -/
def Message.Fixed (message : Message) : Prop :=
  ∃ pattern, message.body = .pattern pattern ∧
    ∀ term, .term term ∈ pattern.parts → ∀ segment ∈ term.path, segment.text?.isSome

/-- A term in a resource refers to a target, where there is a message. -/
structure Term.RefersTo (lookup : Lookup) (resource : String) (term : Term) (target : Target)
    (found : Message) : Prop where
  resource : target.resource = term.resource.getD resource
  spelled : term.path.map Operand.text? = target.path.map some
  there : lookup target.resource target.path = some found

/-- Targets that follow each other: the first is that of a term of a message in a resource, and each
later one that of a term of the message at the one before. -/
inductive Chain (lookup : Lookup) : String → Message → List Target → Prop
  | nil : Chain lookup resource message []
  | cons (body : message.body = .pattern pattern) (member : .term term ∈ pattern.parts)
      (refers : term.RefersTo lookup resource target found)
      (rest : Chain lookup target.resource found targets) :
      Chain lookup resource message (target :: targets)

/-- A target that some chain of references leads to. -/
def Reachable (lookup : Lookup) (resource : String) (message : Message) (target : Target) : Prop :=
  ∃ targets, Chain lookup resource message targets ∧ target ∈ targets

private theorem exists_spelled {path : List Operand} (literal : ∀ segment ∈ path, segment.text?.isSome) :
    ∃ texts : List String, path.map Operand.text? = texts.map some := by
  induction path with
  | nil => exact ⟨[], rfl⟩
  | cons segment path ih =>
    obtain ⟨texts, spelled⟩ := ih fun other member => literal other (by simp [member])
    obtain ⟨text, same⟩ := Option.isSome_iff_exists.mp (literal segment (by simp))
    exact ⟨text :: texts, by simp [same, spelled]⟩

private theorem segment?_of_text? {segment : Operand} {text : String} (literal : segment.text? = some text)
    (scope : Scope) : scope.segment? segment = some text := by
  cases segment with
  | literal plain metadata => simpa [Scope.segment?, Operand.text?] using literal
  | _ => cases literal

private theorem Term.target_eq {term : Term} {path : List String}
    (spelled : term.path.map Operand.text? = path.map some) (scope : Scope) :
    term.target scope = path := by
  rw [Term.target]
  generalize term.path = segments at spelled
  induction segments generalizing path with
  | nil =>
    cases path with
    | nil => rfl
    | cons text path => cases spelled
  | cons segment segments ih =>
    cases path with
    | nil => cases spelled
    | cons text path =>
      obtain ⟨first, rest⟩ := List.cons.inj spelled
      rw [List.map_cons, ih rest, segment?_of_text? first]
      rfl

end references

section limit

variable [Monad m] [LawfulMonad m] {context : Context m} {message : Message}

theorem termPiece_decides {descend : Descent m} {term : Term} {target : Target}
    {error : ResolveError} {condition : Message → Prop}
    (resource : target.resource = term.resource.getD context.resource)
    (spelled : term.path.map Operand.text? = target.path.map some)
    (entry : ∀ found, context.lookup target.resource target.path = some found →
      Decides (condition found) error
        (descend context target.resource target.path (term.scope context.scope) found)) :
    Decides (∀ found, context.lookup target.resource target.path = some found → condition found)
      error (termPiece descend context term) := by
  simp only [termPiece, Term.target_eq spelled, ← resource]
  split
  · next absent => exact (Returns.pure _).decides (by simp [absent])
  · next found there =>
    refine ((entry found there).bind_returns fun _ => .pure _).congr ?_
    simp [there]

theorem Term.RefersTo.eq_target {lookup : Lookup} {resource : String} {term : Term}
    {place target : Target} {found : Message} (refers : term.RefersTo lookup resource place found)
    (same : target.resource = term.resource.getD resource)
    (spelled : term.path.map Operand.text? = target.path.map some) : place = target := by
  obtain ⟨placed, path⟩ := place
  obtain ⟨owner, segments⟩ := target
  have resources : placed = owner := refers.resource.trans same.symm
  have paths : path.map some = segments.map some := refers.spelled.symm.trans spelled
  rw [resources, (List.map_inj_right fun _ _ => Option.some.inj).mp paths]

/-- A pattern needs that, behind each of its references, no chain is as long as it may be itself. -/
theorem resolveBody_decides_of_entry {descend : Descent m} {error : ResolveError} {depth : Nat}
    (own : message.Fixed)
    (entry : ∀ (term : Term) (target : Target) (found : Message),
      term.RefersTo context.lookup context.resource target found →
      (∀ targets, Chain context.lookup target.resource found targets →
        Chain context.lookup context.resource message (target :: targets)) →
      Decides (∀ targets, Chain context.lookup target.resource found targets →
          targets.length < depth) error
        (descend context target.resource target.path (term.scope context.scope) found)) :
    Decides
      (∀ targets, Chain context.lookup context.resource message targets → targets.length ≤ depth)
      error (resolveBody descend context message) := by
  obtain ⟨pattern, body, literal⟩ := own
  have each (part : Part) (member : part ∈ pattern.parts) :
      Decides (∀ (term : Term) (target : Target) (found : Message), part = .term term →
        term.RefersTo context.lookup context.resource target found →
        ∀ targets, Chain context.lookup target.resource found targets → targets.length < depth)
        error (partPiece descend context part) := by
    cases part with
    | term term =>
      obtain ⟨path, spelled⟩ := exists_spelled (literal term member)
      let target : Target := ⟨term.resource.getD context.resource, path⟩
      have refers (found) (there : context.lookup target.resource target.path = some found) :
          term.RefersTo context.lookup context.resource target found := ⟨rfl, spelled, there⟩
      have piece := termPiece_decides (show target.resource = _ from rfl) spelled
        fun found there => entry term target found (refers found there)
          fun targets rest => .cons body member (refers found there) rest
      refine piece.congr ⟨?_, ?_⟩
      · rintro holds other place found ⟨⟩ reference
        obtain rfl := reference.eq_target (show target.resource = _ from rfl) spelled
        exact holds found reference.there
      · intro holds found there
        exact holds term target found rfl (refers found there)
    | call call => exact (Returns.lift _).decides (by simp)
    | _ => exact (Returns.pure _).decides (by simp)
  simp only [resolveBody, body]
  refine ((partPieces_decides each).bind_returns fun _ => .pure _).congr ⟨?_, ?_⟩
  · intro holds targets chain
    cases chain with
    | nil => exact Nat.zero_le depth
    | cons same member refers rest =>
      obtain rfl := Body.pattern.inj (body.symm.trans same)
      exact holds _ member _ _ _ rfl refers _ rest
  · rintro holds part member term target found rfl refers targets rest
    exact holds (target :: targets) (.cons body member refers rest)

/-- Messages resolve within a number of nested terms if no chain of references is longer, and fail
by the limit if one is, as long as no key comes twice on the call stack and a chain together. The
induction is on that number. -/
theorem resolveBody_decides (depth : Nat)
    (stored : ∀ resource path found, context.lookup resource path = some found → found.Fixed)
    (own : message.Fixed)
    (fresh : ∀ targets, Chain context.lookup context.resource message targets →
      (context.callStack ++ targets.map Target.key).Nodup) :
    Decides
      (∀ targets, Chain context.lookup context.resource message targets → targets.length ≤ depth)
      (.maxDepthExceeded context.maxDepth) (resolveBody (descent depth) context message) := by
  induction depth generalizing context message with
  | zero =>
    apply resolveBody_decides_of_entry own
    intro term target found refers further
    exact ⟨fun holds => absurd (holds [] .nil) (Nat.lt_irrefl 0), fun _ => Fails.throw _⟩
  | succ depth ih =>
    apply resolveBody_decides_of_entry own
    intro term target found refers further
    let inner : Context m := { context with
      scope := term.scope context.scope, resource := target.resource,
      callStack := context.callStack ++ [target.key] }
    have absent : target.key ∉ context.callStack := by
      intro present
      have distinct := (List.nodup_append.mp (fresh [target] (further [] .nil))).2.2
      exact distinct _ present target.key (by simp) rfl
    have entered : descent (depth + 1) context target.resource target.path
        (term.scope context.scope) found = resolveBody (descent depth) inner found := by
      have entry : context.enter target.resource target.path (term.scope context.scope) =
          .ok inner := if_neg absent
      simp only [descent, entry]
      exact pure_bind inner _
    have still (targets) (chain : Chain inner.lookup inner.resource found targets) :
        (inner.callStack ++ targets.map Target.key).Nodup := by
      simpa [inner] using fresh (target :: targets) (further targets chain)
    have kept (resource path other) (there : inner.lookup resource path = some other) :
        other.Fixed := stored resource path other there
    rw [entered]
    exact (ih kept (stored _ _ _ refers.there) still).congr
      (forall_congr' fun targets => imp_congr_right fun _ => Nat.lt_succ_iff.symm)

/-- The limit on nested terms is exact where references are literal, do not run in a circle, and
lead to places with keys of their own: a message resolves if every chain of references is within the
limit, and fails by the limit if one is not. -/
theorem pieces_within_limit [MonadAttach m] [LawfulMonadAttach m] {formatter : Formatter m}
    {message : Message} {scope : Scope}
    (stored : ∀ resource path found, formatter.catalog.get? resource path = some found → found.Fixed)
    (own : message.Fixed)
    (acyclic : ∀ targets, Chain formatter.catalog.get? formatter.resource message targets →
      targets.Nodup)
    (distinct : ∀ target other,
      Reachable formatter.catalog.get? formatter.resource message target →
      Reachable formatter.catalog.get? formatter.resource message other →
      target.key = other.key → target = other) :
    let within := ∀ targets, Chain formatter.catalog.get? formatter.resource message targets →
      targets.length ≤ formatter.maxDepth
    (within → Returns (formatter.pieces message scope)) ∧
    (¬ within → Fails (formatter.pieces message scope) (.maxDepthExceeded formatter.maxDepth)) ∧
    ∀ pieces, CanEnd (formatter.pieces message scope) (.ok pieces) → within := by
  intro within
  have fresh (targets) (chain : Chain (formatter.context scope).lookup
      (formatter.context scope).resource message targets) :
      ((formatter.context scope).callStack ++ targets.map Target.key).Nodup :=
    (acyclic targets chain).map_on fun target member other among =>
      distinct target other ⟨targets, chain, member⟩ ⟨targets, chain, among⟩
  have body : Decides within (.maxDepthExceeded formatter.maxDepth)
      (resolveBody (descent (formatter.context scope).remaining) (formatter.context scope) message) :=
    resolveBody_decides (formatter.context scope).remaining stored own fresh
  have decided : Decides within (.maxDepthExceeded formatter.maxDepth)
      (formatter.pieces message scope) := by
    apply body.bind_returns
    intro value
    split
    · exact .pure _
    · exact .pure _
  refine ⟨decided.returns, decided.fails, ?_⟩
  intro pieces ends
  by_contra absent
  obtain ⟨effect, run⟩ := decided.fails absent
  rw [CanEnd, run] at ends
  obtain ⟨-, -, same⟩ := LawfulMonadAttach.canReturn_map_imp' ends
  cases same

end limit

section overruns

variable {lookup : Lookup} {resource : String} {path : List String} {targets : List Target}

private theorem Message.fixed_reference (path : List String) : (Message.reference path).Fixed := by
  refine ⟨_, rfl, ?_⟩
  intro term member segment among
  obtain rfl := Part.term.inj (List.mem_singleton.mp member)
  obtain ⟨text, -, rfl⟩ := List.mem_map.mp among
  rfl

private theorem Message.fixed_literal (text : String) : (Message.ofParts [.literal text none]).Fixed := by
  refine ⟨_, rfl, ?_⟩
  intro term member
  cases List.mem_singleton.mp member

private theorem Chain.eq_nil_of_literal {text : String}
    (chain : Chain lookup resource (.ofParts [.literal text none]) targets) : targets = [] := by
  cases chain with
  | nil => rfl
  | cons body member refers rest =>
    obtain rfl := Body.pattern.inj body
    cases List.mem_singleton.mp member

private theorem Chain.of_reference (chain : Chain lookup resource (.reference path) targets) :
    targets = [] ∨ ∃ found rest, lookup resource path = some found ∧
      Chain lookup resource found rest ∧ targets = ⟨resource, path⟩ :: rest := by
  cases chain with
  | nil => exact .inl rfl
  | cons body member refers rest =>
    obtain rfl := Body.pattern.inj body
    obtain rfl := Part.term.inj (List.mem_singleton.mp member)
    have place : _ = (⟨resource, path⟩ : Target) := refers.eq_target rfl (by simp [Operand.text?])
    subst place
    exact .inr ⟨_, _, refers.there, rest, rfl⟩

/-- Two nested terms are one too many for a limit of one. -/
theorem pieces_within_limit_exceeded :
    let stored := (Catalog.empty.insert "default" ["a"] (.reference ["b"])).insert "default" ["b"]
      (.ofParts [.literal "done" none])
    let formatter : Formatter Id := ⟨[], .empty, stored, "default", 1⟩
    Fails (formatter.pieces (.reference ["a"]) .empty) (.maxDepthExceeded 1) := by
  intro stored formatter
  have chains (targets) (chain : Chain stored.get? "default" (.reference ["a"]) targets) :
      targets <+: [⟨"default", ["a"]⟩, ⟨"default", ["b"]⟩] := by
    rcases chain.of_reference with rfl | ⟨found, rest, there, chain, rfl⟩
    · exact List.nil_prefix
    · obtain rfl := Option.some.inj there
      rcases chain.of_reference with rfl | ⟨found, last, there, chain, rfl⟩
      · exact ⟨_, rfl⟩
      · obtain rfl := Option.some.inj there
        obtain rfl := chain.eq_nil_of_literal
        exact List.prefix_rfl
  have among (target) (reached : Reachable stored.get? "default" (.reference ["a"]) target) :
      target ∈ [(⟨"default", ["a"]⟩ : Target), ⟨"default", ["b"]⟩] := by
    obtain ⟨targets, chain, member⟩ := reached
    exact (chains targets chain).subset member
  have fixed (resource path found) (there : stored.get? resource path = some found) :
      found.Fixed := by
    have shape : stored.resources = [("default", [(["a"], .reference ["b"]),
      (["b"], .ofParts [.literal "done" none])])] := rfl
    simp only [shape, Catalog.get?] at there
    obtain ⟨messages, owner, there⟩ := Option.bind_eq_some_iff.mp there
    obtain ⟨-, rfl⟩ := Prod.mk.inj (List.mem_singleton.mp (Keyed.mem_of_lookup owner))
    have entry := Keyed.mem_of_lookup there
    simp only [List.mem_cons, Prod.mk.injEq, List.not_mem_nil, or_false] at entry
    rcases entry with ⟨-, rfl⟩ | ⟨-, rfl⟩
    · exact Message.fixed_reference _
    · exact Message.fixed_literal _
  have distinct (target other) (one : Reachable stored.get? "default" (.reference ["a"]) target)
      (two : Reachable stored.get? "default" (.reference ["a"]) other)
      (same : target.key = other.key) : target = other := by
    have keys := among target one
    have others := among other two
    simp only [List.mem_cons, List.not_mem_nil, or_false] at keys others
    rcases keys with rfl | rfl
    all_goals rcases others with rfl | rfl
    all_goals first | rfl | exact absurd same (by decide)
  have last : Chain stored.get? "default" (.reference ["b"]) [⟨"default", ["b"]⟩] :=
    .cons rfl (.head _) ⟨rfl, rfl, rfl⟩ .nil
  have both : Chain stored.get? "default" (.reference ["a"]) [⟨"default", ["a"]⟩, ⟨"default", ["b"]⟩] :=
    .cons rfl (.head _) ⟨rfl, rfl, rfl⟩ last
  exact (pieces_within_limit fixed (Message.fixed_reference _)
    (fun targets chain => (chains targets chain).sublist.nodup (by decide)) distinct).2.1
    fun within => absurd (within _ both) (by decide)

end overruns

end Phrasebook
