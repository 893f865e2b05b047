import Phrasebook.Resolve.Basic

namespace Phrasebook

open MonadAttach (CanReturn)

section outcomes

variable [Monad m] [LawfulMonad m]

theorem throw_bind (error : ResolveError) (next : α → Resolution m β) :
    (throw error >>= next) = throw error := by
  apply ExceptT.ext
  simp

theorem pure_eq_lift (value : α) : (pure value : Resolution m α) = ExceptT.lift (pure value) := by
  apply ExceptT.ext
  rw [ExceptT.run_pure, ExceptT.run_lift, map_pure]

variable [MonadAttach m] [LawfulMonadAttach m]

/-- The resolution can end with a result, by what the functions that it calls can return. -/
def CanEnd (resolution : Resolution m α) (result : Except ResolveError α) : Prop :=
  CanReturn resolution.run result

theorem eq_of_canEnd_pure {value : α} {result : Except ResolveError α}
    (ends : CanEnd (pure value : Resolution m α) result) : result = .ok value :=
  (LawfulMonadAttach.eq_of_canReturn_pure ends).symm

theorem eq_of_canEnd_mk {outcome result : Except ResolveError α}
    (ends : CanEnd (ExceptT.mk (pure outcome) : Resolution m α) result) : result = outcome :=
  (LawfulMonadAttach.eq_of_canReturn_pure ends).symm

private theorem exists_of_canEnd_lift {effect : m α} {result : Except ResolveError α}
    (ends : CanEnd (ExceptT.lift effect : Resolution m α) result) :
    ∃ value, CanReturn effect value ∧ result = .ok value := by
  obtain ⟨value, returned, same⟩ := LawfulMonadAttach.canReturn_map_imp' ends
  exact ⟨value, returned, same.symm⟩

theorem not_canEnd_pure {value : α} {error : ResolveError} :
    ¬ CanEnd (pure value : Resolution m α) (.error error) := by
  intro ends
  cases eq_of_canEnd_pure ends

theorem not_canEnd_lift {effect : m α} {error : ResolveError} :
    ¬ CanEnd (ExceptT.lift effect : Resolution m α) (.error error) := by
  intro ends
  obtain ⟨value, -, same⟩ := exists_of_canEnd_lift ends
  cases same

/-- A sequence fails where its first step fails, or where the second does on a result of the first. -/
theorem canEnd_bind {first : Resolution m α} {next : α → Resolution m β} {error : ResolveError}
    (ends : CanEnd (first >>= next) (.error error)) :
    CanEnd first (.error error) ∨
      ∃ value, CanEnd first (.ok value) ∧ CanEnd (next value) (.error error) := by
  rw [CanEnd, ExceptT.run_bind] at ends
  obtain ⟨outcome, returned, rest⟩ := LawfulMonadAttach.canReturn_bind_imp' ends
  cases outcome with
  | error other =>
    cases LawfulMonadAttach.eq_of_canReturn_pure rest
    exact .inl returned
  | ok value => exact .inr ⟨value, returned, rest⟩

theorem canEnd_bind_pure {first : Resolution m α} {next : α → β} {error : ResolveError}
    (ends : CanEnd (first >>= fun value => pure (next value)) (.error error)) :
    CanEnd first (.error error) := by
  rcases canEnd_bind ends with failed | ⟨value, -, rest⟩
  · exact failed
  · exact absurd rest not_canEnd_pure

theorem exists_of_canEnd_bind {first : Resolution m α} {next : α → Resolution m β} {result : β}
    (ends : CanEnd (first >>= next) (.ok result)) :
    ∃ value, CanEnd first (.ok value) ∧ CanEnd (next value) (.ok result) := by
  rw [CanEnd, ExceptT.run_bind] at ends
  obtain ⟨outcome, returned, rest⟩ := LawfulMonadAttach.canReturn_bind_imp' ends
  cases outcome with
  | error error => cases LawfulMonadAttach.eq_of_canReturn_pure rest
  | ok value => exact ⟨value, returned, rest⟩

private theorem bind_congr_of_canReturn {effect : m α} {next other : α → m β}
    (same : ∀ value, CanReturn effect value → next value = other value) :
    (effect >>= next) = effect >>= other := by
  rw [← WeaklyLawfulMonadAttach.map_attach (x := effect), bind_map_left, bind_map_left]
  exact bind_congr fun returned => same returned.1 returned.2

theorem bind_congr_of_canEnd {first : Resolution m α} {next other : α → Resolution m β}
    (same : ∀ value, CanEnd first (.ok value) → next value = other value) :
    (first >>= next) = first >>= other := by
  apply ExceptT.ext
  rw [ExceptT.run_bind, ExceptT.run_bind]
  refine bind_congr_of_canReturn fun outcome returned => ?_
  cases outcome with
  | ok value => exact congrArg ExceptT.run (same value returned)
  | error error => rfl

theorem not_canEnd_throw {error : ResolveError} {value : α} :
    ¬ CanEnd (throw error : Resolution m α) (.ok value) := by
  intro ends
  cases eq_of_canEnd_mk ends

theorem eq_pure_of_canEnd {resolution : Resolution Id α} {value : α}
    (ends : CanEnd resolution (.ok value)) : resolution = pure value := ExceptT.ext ends

end outcomes

section failures

variable [Monad m] [LawfulMonad m] [MonadAttach m] [LawfulMonadAttach m]
  {descend : Descent m} {context : Context m} {error : ResolveError}

theorem partPieces_failed {parts : List Part}
    (ends : CanEnd (partPieces descend context parts) (.error error)) :
    ∃ part ∈ parts, CanEnd (partPiece descend context part) (.error error) := by
  induction parts with
  | nil => exact absurd ends not_canEnd_pure
  | cons part parts ih =>
    rcases canEnd_bind ends with failed | ⟨piece, -, rest⟩
    · exact ⟨part, by simp, failed⟩
    · obtain ⟨other, member, failed⟩ := ih (canEnd_bind_pure rest)
      exact ⟨other, by simp [member], failed⟩

theorem termPiece_failed {term : Term}
    (ends : CanEnd (termPiece descend context term) (.error error)) :
    ∃ found, context.lookup (term.resource.getD context.resource) (term.target context.scope) =
        some found ∧
      CanEnd (descend context (term.resource.getD context.resource) (term.target context.scope)
        (term.scope context.scope) found) (.error error) := by
  simp only [termPiece] at ends
  split at ends
  · exact absurd ends not_canEnd_pure
  · next found there => exact ⟨found, there, canEnd_bind_pure ends⟩

theorem partPiece_failed {part : Part}
    (ends : CanEnd (partPiece descend context part) (.error error)) :
    ∃ term, part = .term term ∧ CanEnd (termPiece descend context term) (.error error) := by
  cases part with
  | term term => exact ⟨term, rfl, ends⟩
  | call call => exact absurd ends not_canEnd_lift
  | _ => exact absurd ends not_canEnd_pure

/-- A selector that is a call never fails, nor does what is done with the value of another. -/
theorem selectorValue_failed {part : Part}
    (ends : CanEnd (selectorValue descend context part) (.error error)) :
    CanEnd (partPiece descend context part) (.error error) := by
  simp only [selectorValue] at ends
  split at ends
  · rcases canEnd_bind ends with failed | ⟨value, -, rest⟩
    · exact absurd failed not_canEnd_lift
    · split at rest
      · exact absurd (canEnd_bind_pure rest) not_canEnd_lift
      · exact absurd (canEnd_bind_pure rest) not_canEnd_pure
  · rcases canEnd_bind ends with failed | ⟨piece, -, rest⟩
    · exact failed
    · simp only [pure_bind] at rest
      split at rest
      · exact absurd (canEnd_bind_pure rest) not_canEnd_lift
      · exact absurd rest not_canEnd_pure

theorem selectorValues_failed {selectors : List Selector}
    (ends : CanEnd (selectorValues descend context selectors) (.error error)) :
    ∃ selector ∈ selectors, CanEnd (partPiece descend context selector.value) (.error error) := by
  induction selectors with
  | nil => exact absurd ends not_canEnd_pure
  | cons selector selectors ih =>
    rcases canEnd_bind ends with failed | ⟨value, -, rest⟩
    · exact ⟨selector, by simp, selectorValue_failed failed⟩
    · obtain ⟨other, member, failed⟩ := ih (canEnd_bind_pure rest)
      exact ⟨other, by simp [member], failed⟩

/-- The parts that are resolved for a message: those of its pattern, the selectors of its selection,
and those of a variant's pattern that the selection can choose. -/
inductive Resolves (descend : Descent m) (context : Context m) (message : Message) : Part → Prop
  | pattern (body : message.body = .pattern node) (member : part ∈ node.parts) :
      Resolves descend context message part
  | selector (body : message.body = .select node) (member : selector ∈ node.selectors) :
      Resolves descend context message selector.value
  | variant (body : message.body = .select node)
      (chosen : CanEnd (resolveSelect descend context node) (.ok selection))
      (value : selection.pattern = some pattern) (member : part ∈ pattern.parts) :
      Resolves descend context message part

/-- A message fails where one of the parts that are resolved for it does. -/
theorem resolveBody_failed {message : Message}
    (ends : CanEnd (resolveBody descend context message) (.error error)) :
    ∃ part, Resolves descend context message part ∧
      CanEnd (partPiece descend context part) (.error error) := by
  simp only [resolveBody] at ends
  split at ends
  · next node body =>
    obtain ⟨part, member, failed⟩ := partPieces_failed (canEnd_bind_pure ends)
    exact ⟨part, .pattern body member, failed⟩
  · next node body =>
    rcases canEnd_bind ends with failed | ⟨selection, chosen, rest⟩
    · obtain ⟨selector, member, failed⟩ := selectorValues_failed (canEnd_bind_pure failed)
      exact ⟨selector.value, .selector body member, failed⟩
    · split at rest
      · exact absurd rest not_canEnd_pure
      · next pattern value =>
        obtain ⟨part, member, failed⟩ := partPieces_failed (canEnd_bind_pure rest)
        exact ⟨part, .variant body chosen value member, failed⟩

theorem resolve_failed {message : Message}
    (ends : CanEnd (context.resolve message) (.error error)) :
    CanEnd (resolveBody (descent context.remaining) context message) (.error error) := by
  rcases canEnd_bind ends with failed | ⟨body, -, rest⟩
  · exact failed
  · split at rest
    · exact absurd rest not_canEnd_pure
    · exact absurd rest not_canEnd_pure

end failures

section wrapping

/-- The pieces of a message by its body: wrapped into one piece where there is metadata. -/
def Message.wrapped (message : Message) (body : ResolvedBody) : List Piece :=
  match Metadata.mergeOptional message.metadata body.selection with
  | some bag => [.message body.pieces bag]
  | none => body.pieces

theorem Context.resolve_eq [Monad m] [LawfulMonad m] (context : Context m) (message : Message) :
    context.resolve message =
      message.wrapped <$> resolveBody (descent context.remaining) context message := by
  rw [map_eq_pure_bind]
  refine bind_congr fun body => ?_
  unfold Message.wrapped
  cases Metadata.mergeOptional message.metadata body.selection with
  | none => rfl
  | some bag => rfl

end wrapping

end Phrasebook
