import Phrasebook.Formatter
import Phrasebook.Proofs.Resolve.Following

namespace Phrasebook

section agreement

variable [Monad m]

/-- Where a term stands decides on what scope its target sees, but then on nothing else. -/
theorem descent_scope (depth : Nat) (context : Context m) (scope : Scope) :
    descent depth { context with scope } = descent depth context := by
  cases depth <;> rfl

variable [LawfulMonad m]

private theorem descent_of_agrees (depth : Nat) (context : Context m) {resource : String} {path : List String}
    {scope scope' : Scope} {found : Message} (there : context.lookup resource path = some found)
    (agree : scope.Agrees scope') :
    descent depth context resource path scope found =
      descent depth context resource path scope' found :=
  (descent_same (.refl context) rfl rfl depth resource path scope scope' found there agree).eq

/-- A message resolves to the same, or fails in the same way, in scopes that agree. -/
theorem resolve_of_agrees (context : Context m) {scope scope' : Scope} (agree : scope.Agrees scope')
    (message : Message) :
    { context with scope }.resolve message = { context with scope := scope' }.resolve message := by
  have alike : Context.Alike { context with scope } { context with scope := scope' } :=
    ⟨rfl, rfl, rfl, agree, rfl⟩
  have body := (resolveBody_follows alike (descent_same alike rfl rfl context.remaining) message).eq
  rw [Context.resolve_eq, Context.resolve_eq]
  exact congrArg _ body

end agreement

section layers

namespace Scope

/-- The scope with all its layers made one. Where several layers bind a name, the innermost of them
counts. -/
def flat (scope : Scope) : Scope := .ofPairs scope.layers.flatten.reverse

private theorem lookup_flatten (layers : List (List (String × Value))) (name : String) :
    layers.flatten.lookup name = layers.findSome? fun layer => layer.lookup name := by
  induction layers with
  | nil => rfl
  | cons layer layers ih =>
    rw [List.flatten_cons, List.lookup_append, ih, List.findSome?_cons]
    cases layer.lookup name <;> rfl

theorem lookup_flat (scope : Scope) (name : String) :
    (Keyed.ofPairs scope.layers.flatten.reverse).lookup name = scope.get? name := by
  rw [Keyed.lookup_ofPairs, List.reverse_reverse, lookup_flatten, get?]

private theorem flat_agrees (scope : Scope) : scope.flat.Agrees scope := by
  intro name
  calc scope.flat.get? name
    _ = (Keyed.ofPairs scope.layers.flatten.reverse).lookup name := List.findSome?_singleton
    _ = scope.get? name := scope.lookup_flat name

end Scope

/-- The layers of a scope cannot be told from one layer that binds every name once, to its value in
the innermost layer that has it. -/
theorem resolve_flat [Monad m] [LawfulMonad m] (context : Context m) (message : Message) :
    (∃ bindings, context.scope.flat = ⟨[bindings]⟩ ∧ (bindings.map Prod.fst).Nodup ∧
      ∀ name, bindings.lookup name =
        context.scope.layers.findSome? fun layer => layer.lookup name) ∧
    { context with scope := context.scope.flat }.resolve message = context.resolve message :=
  ⟨⟨_, rfl, Keyed.nodup_keys_ofPairs _, context.scope.lookup_flat⟩,
    resolve_of_agrees context context.scope.flat_agrees message⟩

/-- Three layers, and a term that puts a fourth one over them. -/
theorem resolve_flat_greeting :
    let greeting := Message.ofParts [.variable [.literal "word" none] none, .literal " " none,
      .variable [.literal "name" none] none]
    let stored := Catalog.empty.insert "default" ["greet"] greeting
    let scope := (Scope.ofPairs [("name", .text "Ada"), ("word", .text "Hello")]).extend
      [("name", .text "Bo")] |>.extend []
    let term : Term := ⟨none, [.literal "greet" none], [("word", .literal "Hi" none)], none⟩
    let context : Context Id := ⟨[], .empty, stored.get?, scope, "default", [], 64⟩
    context.scope.flat = ⟨[[("word", .text "Hello"), ("name", .text "Bo")]]⟩ ∧
    (∃ bag, CanEnd (context.resolve (.ofParts [.term term])) (.ok [.message
      [.dynamic (.text "Hi") .empty, .literal " " .empty, .dynamic (.text "Bo") .empty] bag])) ∧
    { context with scope := context.scope.flat }.resolve (.ofParts [.term term]) =
      context.resolve (.ofParts [.term term]) := by
  intro greeting stored scope term context
  obtain ⟨-, same⟩ := resolve_flat context (.ofParts [.term term])
  exact ⟨rfl, ⟨_, rfl⟩, same⟩

end layers

section shadowing

variable {term : Term} {scope scope' : Scope} {name : String}

/-- The term has an operand with a value for the name. -/
def Term.Binds (term : Term) (scope : Scope) (name : String) : Prop :=
  ∃ entry ∈ term.bindings, entry.1 = name ∧ (resolveOption? .any scope name entry.2).isSome

theorem Term.isSome_lookup_iff (term : Term) (scope : Scope) (name : String) :
    ((resolveOptions term.bindings .any scope).lookup name).isSome ↔ term.Binds scope name := by
  rw [resolveOptions, Keyed.lookup_sortedOfPairs, List.lookup_isSome_iff]
  constructor
  · rintro ⟨pair, member, same⟩
    obtain ⟨entry, listed, resolved⟩ := List.mem_filterMap.mp (List.mem_reverse.mp member)
    obtain ⟨value, found, rfl⟩ := Option.map_eq_some_iff.mp resolved
    obtain rfl : name = entry.1 := eq_of_beq same
    exact ⟨entry, listed, rfl, Option.isSome_of_eq_some found⟩
  · rintro ⟨entry, listed, rfl, resolved⟩
    obtain ⟨value, found⟩ := Option.isSome_iff_exists.mp resolved
    refine ⟨(entry.1, value), List.mem_reverse.mpr (List.mem_filterMap.mpr ?_), beq_self_eq_true _⟩
    exact ⟨entry, listed, Option.map_eq_some_iff.mpr ⟨value, found, rfl⟩⟩

private theorem Term.get?_scope_of_not_binds (free : ¬ term.Binds scope name) :
    (term.scope scope).get? name = scope.get? name := by
  have absent : (resolveOptions term.bindings .any scope).lookup name = none :=
    Option.not_isSome_iff_eq_none.mp fun present => free ((term.isSome_lookup_iff ..).mp present)
  rw [Scope.Agrees.term_extend term scope, Scope.get?_extend, absent, Option.none_or]

/-- Scopes that differ in one name, and not for the operands of a term that binds it, are the same to
the target of the term. -/
theorem Term.scope_agrees (others : ∀ other ≠ name, scope.get? other = scope'.get? other)
    (operands : ∀ entry ∈ term.bindings,
      resolveOption? .any scope entry.1 entry.2 = resolveOption? .any scope' entry.1 entry.2)
    (bound : term.Binds scope name) : (term.scope scope).Agrees (term.scope scope') := by
  have layer : resolveOptions term.bindings .any scope = resolveOptions term.bindings .any scope' :=
    congrArg Keyed.sortedOfPairs
      (List.filterMap_congr fun entry member => by rw [operands entry member])
  intro other
  rw [Scope.Agrees.term_extend term scope, Scope.Agrees.term_extend term scope',
    Scope.get?_extend, Scope.get?_extend, ← layer]
  by_cases same : other = name
  · subst same
    obtain ⟨value, found⟩ := Option.isSome_iff_exists.mp ((term.isSome_lookup_iff ..).mpr bound)
    rw [found, Option.some_or, Option.some_or]
  · rw [others other same]

/-- Around a term, let only the binding of one name differ, and neither the path nor the operands of the
term depend on that. If the term binds the name, it resolves to the same. If it does not, because no
operand for the name has a value, its target sees the bindings around the term. -/
theorem resolvePart_of_binds [Monad m] [LawfulMonad m] (context : Context m) (term : Term)
    (name : String) (scope scope' : Scope)
    (others : ∀ other ≠ name, scope.get? other = scope'.get? other)
    (path : ∀ segment ∈ term.path, scope.segment? segment = scope'.segment? segment)
    (operands : ∀ entry ∈ term.bindings,
      resolveOption? .any scope entry.1 entry.2 = resolveOption? .any scope' entry.1 entry.2) :
    (term.Binds scope name →
      { context with scope }.resolvePart (.term term) =
        { context with scope := scope' }.resolvePart (.term term)) ∧
    (¬ term.Binds scope name →
      (term.scope scope).get? name = scope.get? name ∧
      (term.scope scope').get? name = scope'.get? name) := by
  constructor
  · intro bound
    have target : term.target scope = term.target scope' :=
      List.map_congr_left fun segment member => by rw [path segment member]
    have agree := Term.scope_agrees others operands bound
    simp only [Context.resolvePart, partPiece, termPiece, descent_scope, target]
    split
    · rfl
    · next found there =>
      exact congrArg (· >>= _) (descent_of_agrees _ context there agree)
  · intro free
    have free' : ¬ term.Binds scope' name := by
      rintro ⟨entry, member, rfl, resolved⟩
      exact free ⟨entry, member, rfl, operands entry member ▸ resolved⟩
    exact ⟨Term.get?_scope_of_not_binds free, Term.get?_scope_of_not_binds free'⟩

theorem Scope.get?_extend_of_ne {other : String} (different : other ≠ name) (value : Value) :
    (scope.extend [(name, value)]).get? other = scope.get? other := by
  rw [get?_extend, Keyed.lookup_cons_of_ne different, List.lookup_nil, Option.none_or]

/-- A term for a greeting, with an operand for the name that is greeted. -/
def Term.greet (name : Operand) : Term := ⟨none, [.literal "greet" none], [("name", name)], none⟩

def Message.greeting : Message :=
  .ofParts [.literal "Hello " none, .variable [.literal "name" none] none]

theorem resolvePart_of_binds_nick :
    let stored := Catalog.empty.insert "default" ["greet"] .greeting
    let context : Context Id := ⟨[], .empty, stored.get?, .empty, "default", [], 64⟩
    let term := Term.greet (.variable [.literal "nick" none] none)
    let scope := Scope.ofPairs [("nick", .text "Bo")]
    let scope' := scope.extend [("name", .text "Ada")]
    (∀ other ≠ "name", scope.get? other = scope'.get? other) ∧
    (∀ segment ∈ term.path, scope.segment? segment = scope'.segment? segment) ∧
    (∀ entry ∈ term.bindings,
      resolveOption? .any scope entry.1 entry.2 = resolveOption? .any scope' entry.1 entry.2) ∧
    term.Binds scope "name" ∧
    { context with scope }.resolvePart (.term term) =
      { context with scope := scope' }.resolvePart (.term term) ∧
    CanEnd ({ context with scope := scope' }.resolvePart (.term term))
      (.ok (.message [.literal "Hello " .empty, .dynamic (.text "Bo") .empty] .empty)) := by
  intro stored context term scope scope'
  have others : ∀ other ≠ "name", scope.get? other = scope'.get? other :=
    fun other different => (Scope.get?_extend_of_ne different _).symm
  have path : ∀ segment ∈ term.path, scope.segment? segment = scope'.segment? segment :=
    List.forall_mem_singleton.mpr rfl
  have operands : ∀ entry ∈ term.bindings,
      resolveOption? .any scope entry.1 entry.2 = resolveOption? .any scope' entry.1 entry.2 :=
    List.forall_mem_singleton.mpr rfl
  have bound : term.Binds scope "name" := ⟨_, List.mem_singleton_self _, rfl, rfl⟩
  obtain ⟨same, -⟩ := resolvePart_of_binds context term "name" scope scope' others path operands
  exact ⟨others, path, operands, bound, same bound, rfl⟩

/-- So a name that is listed for a term, with an operand that has no value, lets the binding around the
term through. -/
theorem resolvePart_of_not_binds :
    let stored := Catalog.empty.insert "default" ["greet"] .greeting
    let context : Context Id := ⟨[], .empty, stored.get?, .empty, "default", [], 64⟩
    let term := Term.greet (.variable [.literal "nick" none] none)
    let scope := Scope.empty
    let scope' := scope.extend [("name", .text "Ada")]
    "name" ∈ term.bindings.map Prod.fst ∧
    (∀ other ≠ "name", scope.get? other = scope'.get? other) ∧
    (∀ segment ∈ term.path, scope.segment? segment = scope'.segment? segment) ∧
    (∀ entry ∈ term.bindings,
      resolveOption? .any scope entry.1 entry.2 = resolveOption? .any scope' entry.1 entry.2) ∧
    CanEnd ({ context with scope }.resolvePart (.term term))
      (.ok (.message [.literal "Hello " .empty, .fallback "$name" .empty] .empty)) ∧
    CanEnd ({ context with scope := scope' }.resolvePart (.term term))
      (.ok (.message [.literal "Hello " .empty, .dynamic (.text "Ada") .empty] .empty)) ∧
    { context with scope }.resolvePart (.term term) ≠
      { context with scope := scope' }.resolvePart (.term term) := by
  intro stored context term scope scope'
  have hidden : CanEnd ({ context with scope }.resolvePart (.term term))
      (.ok (.message [.literal "Hello " .empty, .fallback "$name" .empty] .empty)) := rfl
  have shown : CanEnd ({ context with scope := scope' }.resolvePart (.term term))
      (.ok (.message [.literal "Hello " .empty, .dynamic (.text "Ada") .empty] .empty)) := rfl
  refine ⟨List.mem_singleton_self _, fun other different => (Scope.get?_extend_of_ne different _).symm,
    List.forall_mem_singleton.mpr rfl, List.forall_mem_singleton.mpr rfl, hidden, shown, ?_⟩
  intro same
  cases hidden.symm.trans (same ▸ shown)

end shadowing

end Phrasebook
