import Phrasebook.Plural.Listed
import Phrasebook.Proofs.Grammar.Tiling
import Phrasebook.Proofs.Resolve.Following
import Phrasebook.Proofs.Resolve.Merging

namespace Phrasebook

open Syntax (plainText?)
open Text.Cursor (Within)

section names

private theorem Operand.displayAll_literals (names : List String) :
    displayAll (names.map fun name => .literal name none) = names := by
  induction names with
  | nil => rfl
  | cons name names ih => rw [List.map_cons, displayAll, ih, display]

/-- A name that is taken apart at its points is displayed as it was, wherever they stand. -/
theorem Operand.display_ofName (name : String) : (ofName name).display = "$" ++ name := by
  have joined : ".".intercalate ((name.toList.splitOn '.').map String.ofList) = name := by
    apply String.toList_inj.mp
    simp [String.toList_intercalate, List.intercalate_splitOn]
  rw [ofName, ofNames, display, displayAll_literals, joined]

end names

section elements

/-- An element as it is written in the source: a text without its escapes, a placeholder as it stands. -/
def Syntax.Element.written? (source : List Char) : Element → Option (List Char)
  | .text token => (Text.slice? source token.span.start token.span.stop).bind plainText?
  | .placeholder node => Text.slice? source node.span.start node.span.stop

/-- Elements as they are written, one after the other. -/
def Syntax.writtenAll? (source : List Char) : List Element → Option (List Char)
  | [] => some []
  | element :: rest => do
    let first ← element.written? source
    let others ← writtenAll? source rest
    return first ++ others

/-- Text, a variable in braces without anything else, or junk. -/
inductive Syntax.Element.Degrades (source : List Char) : Element → Prop
  | text (token : Token) : Degrades source (.text token)
  | binding {node : Placeholder} {token : Token} (body : node.body = .variable token)
      (bare : Text.slice? source node.span.start node.span.stop =
        some ('{' :: '$' :: (token.text.toList ++ ['}']))) :
      Degrades source (.placeholder node)
  | junk {node : Placeholder} {token : Token} (body : node.body = .junk token) :
      Degrades source (.placeholder node)

private theorem Syntax.exists_written {source : List Char} {here : Text.Cursor} (place : Within source here)
    {element : Element} (member : element ∈ (readPattern here).value.elements) :
    ∃ written, element.written? source = some written ∧
      ∀ token, element = .text token → token.text = String.ofList written := by
  obtain ⟨start, reading, reach, found, rfl⟩ := exists_of_mem_many member
  have begins := (place.trans (Text.Cursor.reaches_advance here)).trans reach
  have span := readElement?_span found
  have slice := Within.slice?_eq begins (readElement?_progresses start reading found).1
  cases same : reading.value with
  | text token =>
    have transcribes := readElement?_transcribes begins found token same
    refine ⟨_, transcribes.written, fun other isText => ?_⟩
    rw [← Element.text.inj isText, String.ofList_toList]
  | placeholder node =>
    rw [same] at span
    have spanned : node.span = ⟨start.offset, reading.next.offset⟩ := span
    refine ⟨start.upTo reading.next, ?_, nofun⟩
    rw [Element.written?, spanned, slice]

end elements

section resolution

variable [Monad m] {descend : Descent m} {context : Context m}

/-- A part that comes to a piece which is written as the given text, for any locales. -/
def Part.WritesAs (descend : Descent m) (context : Context m) (text : List Char) (part : Part) : Prop :=
  ∃ piece, partPiece descend context part = pure piece ∧
    ∀ locales, piece.localized locales = String.ofList text

private theorem writesAs_literal (text : List Char) (bag : Option Metadata) :
    (Part.literal (String.ofList text) bag).WritesAs descend context text :=
  ⟨_, rfl, fun _ => rfl⟩

private theorem writesAs_variable {name : String}
    (unresolved : ∀ path ∈ (Part.ofOperand (.ofName name)).paths, context.scope.follow? path = none) :
    (Part.ofOperand (.ofName name)).WritesAs descend context
      ('{' :: '$' :: (name.toList ++ ['}'])) := by
  have absent := unresolved _ (List.mem_singleton_self _)
  refine ⟨.fallback (Operand.ofName name).display .empty, ?_, ?_⟩
  · simp only [partPiece, Operand.ofName, Operand.ofNames, Part.ofOperand, variablePiece] at absent ⊢
    rw [absent]
    rfl
  · intro locales
    rw [Piece.localized, Operand.display_ofName]
    apply String.toList_inj.mp
    simp

private theorem writesAs_of_degrades {source : List Char} {element : Syntax.Element} {written : List Char}
    (degrades : element.Degrades source) (shown : element.written? source = some written)
    (texts : ∀ token, element = .text token → token.text = String.ofList written)
    (unresolved : ∀ path ∈ (element.toPart source).paths, context.scope.follow? path = none) :
    (element.toPart source).WritesAs descend context written := by
  cases degrades with
  | text token =>
    rw [Syntax.Element.toPart, texts token rfl]
    exact writesAs_literal written none
  | @binding node token body bare =>
    -- What is written there is known, since it is the placeholder without any blank.
    obtain rfl := Option.some.inj (bare.symm.trans shown)
    simp only [Syntax.Element.toPart, Syntax.Placeholder.toPart, body] at unresolved ⊢
    exact writesAs_variable unresolved
  | @junk node token body =>
    have slice : Text.slice? source node.span.start node.span.stop = some written := shown
    simp only [Syntax.Element.toPart, Syntax.Placeholder.toPart, body, slice]
    exact writesAs_literal written none

variable [LawfulMonad m]

private theorem partPieces_writtenAll {source : List Char} {elements : List Syntax.Element}
    (each : ∀ element ∈ elements, ∃ written, element.written? source = some written ∧
      (element.toPart source).WritesAs descend context written) :
    ∃ written pieces, Syntax.writtenAll? source elements = some written ∧
      partPieces descend context (elements.map (Syntax.Element.toPart source)) = pure pieces ∧
      ∀ locales, Piece.render locales pieces = String.ofList written := by
  induction elements with
  | nil => exact ⟨[], [], rfl, rfl, fun _ => rfl⟩
  | cons element elements ih =>
    obtain ⟨⟨first, shown, piece, resolved, localized⟩, others⟩ := List.forall_mem_cons.mp each
    obtain ⟨rest, pieces, shownAll, resolvedAll, rendered⟩ := ih others
    refine ⟨first ++ rest, piece :: pieces, ?_, ?_, fun locales => ?_⟩
    · rw [Syntax.writtenAll?, shown, shownAll]
      rfl
    · rw [List.map_cons, partPieces, resolved, resolvedAll, pure_bind, pure_bind]
    · rw [Piece.render, localized, rendered, String.ofList_append]

/-- A message of parts is written as their pieces, whichever of its literals become one. -/
theorem format_ofParts (formatter : Formatter m) (scope : Scope) {parts : List Part}
    {pieces : List Piece}
    (resolved : partPieces (descent (formatter.context scope).remaining) (formatter.context scope) parts =
      pure pieces) :
    formatter.format (.ofParts parts) scope = pure (Piece.render formatter.locales pieces) := by
  have merged : SameBy Piece.written (partPieces (descent (formatter.context scope).remaining)
      (formatter.context scope) (Pattern.ofParts parts).parts) (pure pieces) :=
    resolved ▸ mergeLiterals_written parts
  have shown := congrArg ((· formatter.locales) <$> ·) merged
  simp only [Functor.map_map, map_pure] at shown
  rw [Formatter.format_eq, render_resolve]
  simp only [resolveBody, Message.ofParts, map_bind, map_pure]
  exact (map_eq_pure_bind ..).symm.trans shown

private theorem mem_prepend {part first : Part} {rest : List Part} (other : part.isLiteral = false)
    (member : part ∈ first :: rest) : part ∈ Pattern.prepend first rest := by
  fun_cases Pattern.prepend first rest with
  | case1 text bag text' bag' later =>
    rcases List.mem_cons.mp member with rfl | present
    · cases other
    · rcases List.mem_cons.mp present with rfl | behind
      · cases other
      · exact List.mem_cons_of_mem _ behind
  | case2 => exact member

private theorem mem_mergeLiterals {part : Part} (other : part.isLiteral = false) {parts : List Part}
    (member : part ∈ parts) : part ∈ Pattern.mergeLiterals parts := by
  induction parts with
  | nil => cases member
  | cons first rest ih =>
    rw [Pattern.mergeLiterals_cons]
    exact mem_prepend other (List.mem_cons.mpr ((List.mem_cons.mp member).imp_right ih))

private theorem mem_variables_ofParts {part : Part} {parts : List Part} (member : part ∈ parts)
    {path : List Operand} (listed : path ∈ part.paths) : path ∈ (Message.ofParts parts).variables := by
  have other : part.isLiteral = false := by
    cases part with
    | literal => cases listed
    | _ => rfl
  exact List.mem_flatMap.mpr ⟨part, mem_mergeLiterals other member, listed⟩

/-- A pattern of text, variables that stand alone in their braces, and junk comes out as it is written if
none of its variables has a value: text without its escapes, and each placeholder with its braces and all
that is between them. -/
theorem format_unresolved (formatter : Formatter m) (scope : Scope) {source : String}
    {pattern : Syntax.Pattern}
    (read : (Syntax.parseTemplate source.toList).1 = ⟨[], .pattern pattern⟩)
    (degrades : ∀ element ∈ pattern.elements, element.Degrades source.toList)
    (unresolved : ∀ path ∈ (Message.parse source).1.variables, scope.follow? path = none) :
    ∃ written, Syntax.writtenAll? source.toList pattern.elements = some written ∧
      formatter.format (Message.parse source).1 scope = pure (String.ofList written) := by
  have message : (Message.parse source).1 =
      .ofParts (pattern.elements.map (Syntax.Element.toPart source.toList)) :=
    congrArg (Syntax.Template.toMessage source.toList) read
  rw [message] at unresolved ⊢
  have listed : pattern ∈ (Syntax.parseTemplate source.toList).1.body.patterns := by
    rw [read]
    exact List.mem_singleton_self pattern
  have each : ∀ element ∈ pattern.elements, ∃ written, element.written? source.toList = some written ∧
      (element.toPart source.toList).WritesAs (descent (formatter.context scope).remaining)
        (formatter.context scope) written := by
    intro element member
    rcases Syntax.exists_of_mem_patterns listed with ⟨here, place, -, rfl⟩ | ⟨-, empty⟩
    · obtain ⟨written, shown, texts⟩ := Syntax.exists_written place member
      refine ⟨written, shown, writesAs_of_degrades (degrades element member) shown texts ?_⟩
      exact fun path found =>
        unresolved path (mem_variables_ofParts (List.mem_map_of_mem member) found)
    · exact absurd (empty ▸ member) List.not_mem_nil
  obtain ⟨written, pieces, shown, resolved, rendered⟩ := partPieces_writtenAll each
  refine ⟨written, shown, ?_⟩
  rw [format_ofParts formatter scope resolved, rendered]

/-- An escaped brace, a name with points that ends in one and starts with a bound name, and junk with blanks. -/
theorem format_unresolved_points :
    let source := "\x7bHi\\\x7b \x7b$user..name.\x7d, \x7b ^  é \x7d\x7d"
    let binding : Syntax.Placeholder := ⟨⟨6, 20⟩, .variable ⟨⟨7, 19⟩, "user..name."⟩⟩
    let junk : Syntax.Placeholder := ⟨⟨22, 31⟩, .junk ⟨⟨24, 30⟩, "^  é "⟩⟩
    let pattern : Syntax.Pattern := ⟨⟨0, 32⟩, [.text ⟨⟨1, 6⟩, "Hi\x7b "⟩, .placeholder binding,
      .text ⟨⟨20, 22⟩, ", "⟩, .placeholder junk]⟩
    let scope := Scope.ofPairs [("user", .text "Ada")]
    let formatter : Formatter Id := .standard .listed
    (Syntax.parseTemplate source.toList).1 = ⟨[], .pattern pattern⟩ ∧
    (∀ element ∈ pattern.elements, element.Degrades source.toList) ∧
    (∀ path ∈ (Message.parse source).1.variables, scope.follow? path = none) ∧
    formatter.format (Message.parse source).1 scope =
      pure "Hi\x7b \x7b$user..name.\x7d, \x7b ^  é \x7d" := by
  intro source binding junk pattern scope formatter
  have read : (Syntax.parseTemplate source.toList).1 = ⟨[], .pattern pattern⟩ := by decide +kernel
  have bare : Text.slice? source.toList binding.span.start binding.span.stop =
      some ('{' :: '$' :: ("user..name.".toList ++ ['}'])) := by decide +kernel
  have degrades : ∀ element ∈ pattern.elements, element.Degrades source.toList := by
    simp only [pattern, List.forall_mem_cons]
    exact ⟨.text _, .binding rfl bare, .text _, .junk rfl, List.forall_mem_nil _⟩
  have named : (Message.parse source).1.variables =
      [["user", "", "name", ""].map fun name => .literal name none] := by
    rw [show (Message.parse source).1 = _ from congrArg (Syntax.Template.toMessage source.toList) read]
    rfl
  have unresolved : ∀ path ∈ (Message.parse source).1.variables, scope.follow? path = none := by
    rw [named, List.forall_mem_singleton]
    rfl
  obtain ⟨written, shown, text⟩ := format_unresolved formatter scope read degrades unresolved
  have whole : Syntax.writtenAll? source.toList pattern.elements =
      some "Hi\x7b \x7b$user..name.\x7d, \x7b ^  é \x7d".toList := by decide +kernel
  obtain rfl := Option.some.inj (shown.symm.trans whole)
  exact ⟨read, degrades, unresolved, text⟩

end resolution

end Phrasebook
