import Phrasebook.Proofs.Resolve.Following

namespace Phrasebook

section success

variable [Monad m] [LawfulMonad m] [MonadAttach m] [LawfulMonadAttach m]

/-- What comes out of a term is the body of its target, with the metadata of the term before that of
the target. -/
theorem exists_of_canEnd_termPiece {descend : Descent m} {context : Context m} {term : Term}
    {found : Message} {piece : Piece}
    (there : context.lookup (term.place context).resource (term.place context).path = some found)
    (ends : CanEnd (termPiece descend context term) (.ok piece)) :
    ∃ body, CanEnd (descend context (term.place context).resource (term.place context).path
        (term.scope context.scope) found) (.ok body) ∧
      piece = .message body.pieces
        (((Metadata.mergeOptional found.metadata body.selection).map
          (term.metadata.getD .empty).merge).getD (term.metadata.getD .empty)) := by
  simp only [Term.place] at there
  simp only [termPiece, there] at ends
  obtain ⟨body, descended, rest⟩ := exists_of_canEnd_bind ends
  exact ⟨body, descended, Except.ok.inj (eq_of_canEnd_pure rest)⟩

theorem exists_of_canEnd_descent {depth : Nat} {context : Context m} {resource : String}
    {path : List String} {scope : Scope} {message : Message} {body : ResolvedBody}
    (ends : CanEnd (descent depth context resource path scope message) (.ok body)) :
    ∃ fewer, depth = fewer + 1 ∧ CanEnd (resolveBody (descent fewer) { context with
      scope, resource, callStack := context.callStack ++ [Context.key resource path] } message)
      (.ok body) := by
  cases depth with
  | zero => exact absurd ends not_canEnd_throw
  | succ fewer =>
    by_cases present : Context.key resource path ∈ context.callStack
    · rw [descent_of_mem fewer present] at ends
      exact absurd ends not_canEnd_throw
    · rw [descent_of_notMem fewer present] at ends
      exact ⟨fewer, rfl, ends⟩

end success

section reference

/-- With no fewer terms to be nested and no other ones around it, a message that resolves does so to
the same pieces. -/
theorem canEnd_resolveBody_of_le {depth more : Nat} {context context' : Context Id}
    {message : Message} {body : ResolvedBody} (fewer : depth ≤ more)
    (alike : context.Alike context') (around : context'.callStack ⊆ context.callStack)
    (ends : CanEnd (resolveBody (descent depth) context message) (.ok body)) :
    CanEnd (resolveBody (descent more) context' message) (.ok body) := by
  have entry : Enters (fun _ => True) (descent depth) (descent more) context context' :=
    descent_enters fewer (fun _ => trivial) alike around (.inr fun _ => trivial)
  rcases (resolveBody_follows alike entry message).eq_or_throw with same | ⟨error, -, stopped⟩
  · exact same ▸ ends
  · exact absurd (stopped ▸ ends) not_canEnd_throw

/-- A term that resolves reads as its target does on its own, in the scope of the term under its
bindings: the pieces are the same but for the piece that carries metadata, and so is the text. -/
theorem term_reads_as_target {context : Context Id} {term : Term} {found : Message} {piece : Piece}
    (there : context.lookup (term.place context).resource (term.place context).path = some found)
    (resolved : CanEnd (context.resolvePart (.term term)) (.ok piece)) :
    let alone : Context Id := { context with
      scope := context.scope.extend (resolveOptions term.bindings .any context.scope)
      resource := (term.place context).resource
      callStack := [] }
    ∃ inner own, piece = .message inner
        ((own.map (term.metadata.getD .empty).merge).getD (term.metadata.getD .empty)) ∧
      let pieces := match own with
        | some bag => [.message inner bag]
        | none => inner
      CanEnd (alone.resolve found) (.ok pieces) ∧
      ∀ locales, Piece.render locales pieces = piece.localized locales := by
  intro alone
  obtain ⟨body, descended, rfl⟩ := exists_of_canEnd_termPiece there resolved
  obtain ⟨depth, remaining, entered⟩ := exists_of_canEnd_descent descended
  let inside : Context Id := { context with
    scope := term.scope context.scope
    resource := (term.place context).resource
    callStack := context.callStack ++ [(term.place context).key] }
  have alike : inside.Alike alone :=
    (Context.Alike.refl context).inside (Scope.Agrees.term_extend term context.scope) ..
  -- In the term its target had more around it and fewer terms to nest than it has alone.
  have fewer : depth ≤ alone.remaining := by
    have limit : context.remaining ≤ alone.remaining := Nat.sub_le ..
    omega
  have apart : CanEnd (resolveBody (descent alone.remaining) alone found) (.ok body) :=
    canEnd_resolveBody_of_le fewer alike (List.nil_subset _) entered
  refine ⟨body.pieces, Metadata.mergeOptional found.metadata body.selection, rfl, ?_⟩
  simp only [Context.resolve, eq_pure_of_canEnd apart, pure_bind]
  cases Metadata.mergeOptional found.metadata body.selection with
  | none => exact ⟨rfl, fun locales => rfl⟩
  | some bag => exact ⟨rfl, fun locales => String.append_empty⟩

/-- A greeting by name from another resource, next to a term that is being resolved. -/
theorem term_reads_as_target_greeting :
    let greeting := (Message.ofParts [.literal "Hello " none,
      .variable [.literal "name" none] none]).withMetadata .empty
    let stored := Catalog.empty.insert "app" ["greeting"] greeting
    let term : Term := ⟨some "app", [.literal "greeting" none], [("name", .literal "Ada" none)], none⟩
    let context : Context Id :=
      ⟨[], .empty, stored.get?, .ofPairs [("name", .text "Bo")], "default", ["default::card"], 2⟩
    let alone : Context Id :=
      ⟨[], .empty, stored.get?, context.scope.extend [("name", .text "Ada")], "app", [], 2⟩
    let piece : Piece := .message [.literal "Hello " .empty, .dynamic (.text "Ada") .empty] .empty
    CanEnd (context.resolvePart (.term term)) (.ok piece) ∧
    ∃ pieces, CanEnd (alone.resolve greeting) (.ok pieces) ∧
      ∀ locales, Piece.render locales pieces = "Hello Ada" := by
  intro greeting stored term context alone piece
  have resolved : CanEnd (context.resolvePart (.term term)) (.ok piece) := rfl
  have there : context.lookup (term.place context).resource (term.place context).path =
      some greeting := rfl
  obtain ⟨inner, own, same, whole, reads⟩ := term_reads_as_target there resolved
  have text (locales) : piece.localized locales = "Hello Ada" := rfl
  exact ⟨resolved, _, whole, fun locales => (reads locales).trans (text locales)⟩

end reference

end Phrasebook
