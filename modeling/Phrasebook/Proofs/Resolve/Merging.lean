import Mathlib.Data.List.Forall2
import Phrasebook.Proofs.Resolve.Erasure

namespace Phrasebook

section written

/-- How pieces are written, for any locales. -/
def Piece.written (pieces : List Piece) : List Locale → String := fun locales => render locales pieces

private theorem Piece.written_cons (piece : Piece) {pieces others : List Piece}
    (same : written pieces = written others) : written (piece :: pieces) = written (piece :: others) :=
  funext fun locales => congrArg (piece.localized locales ++ ·) (congrFun same locales)

theorem Piece.written_eq_join (pieces : List Piece) (locales : List Locale) :
    written pieces locales = String.join (pieces.map (localized locales)) := by
  induction pieces with
  | nil => rfl
  | cons piece pieces ih =>
    rw [List.map_cons, String.join_cons, ← ih]
    rfl

/-- The part is markup that has a name. -/
def Part.isNamedMarkup : Part → Bool
  | .markup node => !node.name.isEmpty
  | _ => false

private theorem localized_markupPiece (context : Context m) {markup : Markup}
    (named : (Part.markup markup).isNamedMarkup) (locales : List Locale) :
    (markupPiece context markup).localized locales = "" := by
  have present : markup.name.isEmpty = false := by simpa [Part.isNamedMarkup] using named
  simp [markupPiece, present, Piece.localized, Value.localized, Value.display]

end written

section merging

variable [Monad m] [LawfulMonad m] {descend : Descent m} {context : Context m}

theorem partPieces_cons_written (part : Part) {parts others : List Part}
    (same : SameBy Piece.written (partPieces descend context parts)
      (partPieces descend context others)) :
    SameBy Piece.written (partPieces descend context (part :: parts))
      (partPieces descend context (part :: others)) :=
  .bind_right _ fun piece => same.bind fun _ _ rest => .pure (Piece.written_cons piece rest)

private theorem prepend_written (part : Part) (parts : List Part) :
    SameBy Piece.written (partPieces descend context (Pattern.prepend part parts))
      (partPieces descend context (part :: parts)) := by
  unfold Pattern.prepend
  split
  · next text bag text' bag' rest =>
    simp only [partPieces, partPiece, pure_bind, bind_assoc]
    exact .bind_right _ fun pieces => .pure (funext fun locales => String.append_assoc)
  · rfl

/-- Merging literals changes nothing in how parts are written. -/
theorem mergeLiterals_written (parts : List Part) :
    SameBy Piece.written (partPieces descend context (Pattern.mergeLiterals parts))
      (partPieces descend context parts) := by
  induction parts with
  | nil => rfl
  | cons part parts ih =>
    rw [Pattern.mergeLiterals_cons]
    exact (prepend_written part _).trans (partPieces_cons_written part ih)

private theorem cons_markup_written {markup : Markup} (named : (Part.markup markup).isNamedMarkup)
    (parts : List Part) :
    SameBy Piece.written (partPieces descend context parts)
      (partPieces descend context (.markup markup :: parts)) := by
  have silent (pieces : List Piece) :
      Piece.written pieces = Piece.written (markupPiece context markup :: pieces) := by
    funext locales
    simp only [Piece.written, Piece.render, localized_markupPiece context named, String.empty_append]
  simp only [partPieces, partPiece, pure_bind]
  simpa using SameBy.bind_right (partPieces descend context parts) fun pieces =>
    SameBy.pure (silent pieces)

private theorem filter_written (parts : List Part) :
    SameBy Piece.written (partPieces descend context (parts.filter fun part => !part.isNamedMarkup))
      (partPieces descend context parts) := by
  induction parts with
  | nil => rfl
  | cons part parts ih =>
    cases named : part.isNamedMarkup with
    | false =>
      rw [List.filter_cons_of_pos (by rw [named]; rfl)]
      exact partPieces_cons_written part ih
    | true =>
      rw [List.filter_cons_of_neg (by simp [named])]
      cases part with
      | markup markup => exact ih.trans (cons_markup_written named parts)
      | _ => cases named

end merging

section outcomes

variable {descend : Descent Id} {context : Context Id}

private theorem eq_throw_of_canEnd {resolution : Resolution Id α} {error : ResolveError}
    (ends : CanEnd resolution (.error error)) : resolution = throw error := ExceptT.ext ends

/-- Parts have pieces if each of them has one, and then these are the pieces. -/
theorem canEnd_partPieces_ok_iff {parts : List Part} {pieces : List Piece} :
    CanEnd (partPieces descend context parts) (.ok pieces) ↔
      List.Forall₂ (fun part piece => CanEnd (partPiece descend context part) (.ok piece))
        parts pieces := by
  induction parts generalizing pieces with
  | nil =>
    rw [List.forall₂_nil_left_iff]
    constructor
    · exact fun ends => Except.ok.inj (eq_of_canEnd_pure ends)
    · rintro rfl
      rfl
  | cons part parts ih =>
    rw [List.forall₂_cons_left_iff]
    constructor
    · intro ends
      obtain ⟨piece, first, ends⟩ := exists_of_canEnd_bind ends
      obtain ⟨pieces, rest, ends⟩ := exists_of_canEnd_bind ends
      exact ⟨piece, pieces, first, ih.mp rest, Except.ok.inj (eq_of_canEnd_pure ends)⟩
    · rintro ⟨piece, pieces, first, rest, rfl⟩
      rw [partPieces, eq_pure_of_canEnd first, eq_pure_of_canEnd (ih.mpr rest)]
      rfl

/-- Parts fail as the first of them that does. -/
theorem canEnd_partPieces_error_iff {parts : List Part} {error : ResolveError} :
    CanEnd (partPieces descend context parts) (.error error) ↔
      ∃ before part after, parts = before ++ part :: after ∧
        (∀ earlier ∈ before, ∃ piece, CanEnd (partPiece descend context earlier) (.ok piece)) ∧
        CanEnd (partPiece descend context part) (.error error) := by
  constructor
  · intro ends
    induction parts with
    | nil => exact absurd ends not_canEnd_pure
    | cons part parts ih =>
      rcases canEnd_bind ends with failed | ⟨piece, first, rest⟩
      · exact ⟨[], part, parts, rfl, List.forall_mem_nil _, failed⟩
      · obtain ⟨before, other, after, rfl, fine, failed⟩ := ih (canEnd_bind_pure rest)
        have through := List.forall_mem_cons.mpr ⟨⟨piece, first⟩, fine⟩
        exact ⟨part :: before, other, after, rfl, through, failed⟩
  · rintro ⟨before, part, after, rfl, fine, failed⟩
    -- On the way back the induction is on the parts that do not fail.
    induction before with
    | nil =>
      rw [List.nil_append, partPieces, eq_throw_of_canEnd failed]
      rfl
    | cons earlier before ih =>
      obtain ⟨⟨piece, first⟩, fine⟩ := List.forall_mem_cons.mp fine
      rw [List.cons_append, partPieces, eq_pure_of_canEnd first, eq_throw_of_canEnd (ih fine)]
      rfl

theorem SameBy.exists_canEnd {view : α → γ} {first second : Resolution Id α}
    {outcome : Except ResolveError α} (same : SameBy view first second) (ends : CanEnd first outcome) :
    ∃ other, CanEnd second other ∧ other.map view = outcome.map view := by
  obtain rfl : first.run = outcome := ends
  have runs : (Except.map view <$> first.run : Id _) = Except.map view <$> second.run := by
    rw [← ExceptT.run_map, ← ExceptT.run_map, same]
  exact ⟨second.run, rfl, runs.symm⟩

private theorem SameBy.canEnd_error {view : α → γ} {first second : Resolution Id α} {error : ResolveError}
    (same : SameBy view first second) (ends : CanEnd first (.error error)) :
    CanEnd second (.error error) := by
  obtain ⟨other, reached, seen⟩ := same.exists_canEnd ends
  cases other with
  | ok value => cases seen
  | error other =>
    obtain rfl : other = error := Except.error.inj seen
    exact reached

private theorem SameBy.exists_canEnd_ok {view : α → γ} {first second : Resolution Id α} {value : α}
    (same : SameBy view first second) (ends : CanEnd first (.ok value)) :
    ∃ other, CanEnd second (.ok other) ∧ view other = view value := by
  obtain ⟨other, reached, seen⟩ := same.exists_canEnd ends
  cases other with
  | ok other => exact ⟨other, reached, Except.ok.inj seen⟩
  | error error => cases seen

theorem exists_forall₂_iff {R : α → β → Prop} {items : List α} :
    (∃ others, List.Forall₂ R items others) ↔ ∀ item ∈ items, ∃ other, R item other := by
  induction items with
  | nil => simp
  | cons item items ih =>
    rw [List.forall_mem_cons, ← ih]
    constructor
    · rintro ⟨others, rows⟩
      obtain ⟨other, others, first, rest, rfl⟩ := List.forall₂_cons_left_iff.mp rows
      exact ⟨⟨other, first⟩, others, rest⟩
    · rintro ⟨⟨other, first⟩, others, rest⟩
      exact ⟨other :: others, .cons first rest⟩

end outcomes

section patterns

/-- The pattern of a list of parts has pieces exactly if every part has one, and otherwise fails as the
first part that does. It is written as the pieces of its parts are, one after the other, and so it stays
the same, or fails in the same way, when markup that has a name is removed. -/
theorem resolvePattern_ofParts (context : Context Id) (parts : List Part) :
    ((∃ pieces, CanEnd (context.resolvePattern (.ofParts parts)) (.ok pieces)) ↔
      ∀ part ∈ parts, ∃ piece, CanEnd (context.resolvePart part) (.ok piece)) ∧
    (∀ error, CanEnd (context.resolvePattern (.ofParts parts)) (.error error) ↔
      ∃ before part after, parts = before ++ part :: after ∧
        (∀ earlier ∈ before, ∃ piece, CanEnd (context.resolvePart earlier) (.ok piece)) ∧
        CanEnd (context.resolvePart part) (.error error)) ∧
    (∀ pieces, CanEnd (context.resolvePattern (.ofParts parts)) (.ok pieces) →
      ∃ each, List.Forall₂ (fun part piece => CanEnd (context.resolvePart part) (.ok piece))
          parts each ∧
        ∀ locales, Piece.render locales pieces = String.join (each.map (Piece.localized locales))) ∧
    ∀ locales,
      Piece.render locales <$> context.resolvePattern
          (.ofParts (parts.filter fun part => !part.isNamedMarkup)) =
        Piece.render locales <$> context.resolvePattern (.ofParts parts) := by
  let resolved (parts : List Part) := partPieces (descent context.remaining) context parts
  have merged (parts : List Part) : SameBy Piece.written (context.resolvePattern (.ofParts parts))
      (resolved parts) := mergeLiterals_written parts
  refine ⟨?_, ?_, ?_, ?_⟩
  · rw [← exists_forall₂_iff]
    simp only [Context.resolvePart, ← canEnd_partPieces_ok_iff]
    constructor
    · rintro ⟨pieces, ends⟩
      exact ((merged parts).exists_canEnd_ok ends).imp fun _ => And.left
    · rintro ⟨pieces, ends⟩
      exact ((merged parts).symm.exists_canEnd_ok ends).imp fun _ => And.left
  · intro error
    exact ⟨fun ends => canEnd_partPieces_error_iff.mp ((merged parts).canEnd_error ends),
      fun first => (merged parts).symm.canEnd_error (canEnd_partPieces_error_iff.mpr first)⟩
  · intro pieces ends
    obtain ⟨each, ends, same⟩ := (merged parts).exists_canEnd_ok ends
    refine ⟨each, canEnd_partPieces_ok_iff.mp ends, fun locales => ?_⟩
    rw [← Piece.written_eq_join, same]
    rfl
  · intro locales
    have same : SameBy Piece.written
        (context.resolvePattern (.ofParts (parts.filter fun part => !part.isNamedMarkup)))
        (context.resolvePattern (.ofParts parts)) :=
      ((merged _).trans (filter_written parts)).trans (merged parts).symm
    have texts := congrArg ((· locales) <$> ·) same
    simp only [Functor.map_map] at texts
    exact texts

/-- A greeting with its name in bold, in literals that are cut in two and into nothing. -/
theorem resolvePattern_ofParts_bold :
    let bold (kind : MarkupKind) : Part := .markup ⟨kind, "bold", [], none⟩
    let parts : List Part := [.literal "Hel" none, .literal "lo " none, bold .opening,
      .variable [.literal "name" none] none, bold .closing, .literal "" none, .literal "!" none]
    let scope := Scope.ofPairs [("name", .text "Ada")]
    let context : Context Id := ⟨[], .empty, fun _ _ => none, scope, "default", [], 64⟩
    (∀ part ∈ parts, ∃ piece, CanEnd (context.resolvePart part) (.ok piece)) ∧
    (Pattern.ofParts parts).parts.length = 5 ∧
    (Pattern.ofParts (parts.filter fun part => !part.isNamedMarkup)).parts.length = 3 ∧
    CanEnd (Piece.render [] <$> context.resolvePattern (.ofParts parts)) (.ok "Hello Ada!") ∧
    CanEnd (Piece.render [] <$> context.resolvePattern
      (.ofParts (parts.filter fun part => !part.isNamedMarkup))) (.ok "Hello Ada!") := by
  intro bold parts scope context
  obtain ⟨all, -, -, silent⟩ := resolvePattern_ofParts context parts
  have text : CanEnd (Piece.render [] <$> context.resolvePattern (.ofParts parts))
    (.ok "Hello Ada!") := rfl
  exact ⟨all.mp ⟨_, rfl⟩, rfl, rfl, text, silent [] ▸ text⟩

end patterns

end Phrasebook
