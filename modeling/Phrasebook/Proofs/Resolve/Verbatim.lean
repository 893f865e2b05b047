import Phrasebook.Formatter
import Phrasebook.Plural.Listed
import Phrasebook.Proofs.Grammar.Decoding

namespace Phrasebook

open Grammar (Escaped Quotation)

section escaping

/-- A text with a backslash before each of its reserved characters. -/
def escapeAll (reserved text : List Char) : List Char :=
  text.flatMap fun c => if c ∈ reserved then ['\\', c] else [c]

/-- The characters of a text, of which the reserved ones are escaped. -/
def Grammar.Escaped.ofText (reserved text : List Char) : List (Escaped reserved) :=
  text.map fun c => if member : c ∈ reserved then .escape c member else .plain c member

variable (reserved text : List Char)

theorem Grammar.Escaped.spelling_ofText :
    Escaped.spelling (Escaped.ofText reserved text) = escapeAll reserved text := by
  rw [spelling, ofText, escapeAll, List.flatMap_map]
  congr 1
  funext c
  split <;> rfl

theorem Grammar.Escaped.meaning_ofText : Escaped.meaning (Escaped.ofText reserved text) = text := by
  rw [meaning, ofText, List.map_map]
  refine List.map_id'' (fun c => ?_) text
  simp only [Function.comp_apply]
  split <;> rfl

end escaping

/-- A text, and how it is written in a pattern. -/
inductive Wording where
  | plain (text : String)
  | quoted (text : String)

namespace Wording

def text : Wording → String
  | .plain text => text
  | .quoted text => text

def spelling : Wording → List Char
  | .plain text => escapeAll ['\\', '{', '}'] text.toList
  | .quoted text => '{' :: '|' :: (escapeAll ['\\', '|'] text.toList ++ ['|', '}'])

/-- The pattern of texts. -/
def source (wordings : List Wording) : String :=
  String.ofList ('{' :: (wordings.flatMap spelling ++ ['}']))

/-- The texts themselves. -/
def whole (wordings : List Wording) : String := String.join (wordings.map text)

/-- The element of a pattern that a text is written as. Nothing is written for an empty one without
quotes. -/
def element? : Wording → Option Grammar.Element
  | .plain text =>
    let items := Escaped.ofText ['\\', '{', '}'] text.toList
    if nonempty : items ≠ [] then some (.run items nonempty) else none
  | .quoted text =>
    let quotation : Quotation := ⟨Escaped.ofText ['\\', '|'] text.toList⟩
    some (.placeholder ⟨.empty, .plain (.quoted quotation), .empty⟩)

def pattern (wordings : List Wording) : Grammar.Pattern := ⟨wordings.filterMap element?⟩

theorem of_element?_eq_none {wording : Wording} (absent : wording.element? = none) :
    wording.spelling = [] ∧ wording.text = "" := by
  cases wording with
  | quoted text => cases absent
  | plain text =>
    have empty : text.toList = [] := by simpa [element?, Escaped.ofText] using absent
    exact ⟨by rw [spelling, empty]; rfl, String.toList_eq_nil_iff.mp empty⟩

theorem of_element?_eq_some {wording : Wording} {element : Grammar.Element}
    (present : wording.element? = some element) :
    element.text = wording.spelling ∧ element.model = .literal wording.text none := by
  cases wording with
  | plain text =>
    simp only [element?] at present
    split at present
    · obtain rfl := Option.some.inj present
      constructor
      · exact Escaped.spelling_ofText ..
      · rw [Grammar.Element.model, Escaped.meaning_ofText, String.ofList_toList]
        rfl
    · cases present
  | quoted text =>
    obtain rfl := Option.some.inj present
    constructor
    · simp [Grammar.Element.text, Grammar.Placeholder.text, Grammar.Content.text,
        Grammar.Operand.text, Quotation.text, Escaped.spelling_ofText, spelling]
    · simp [Grammar.Element.model, Grammar.Placeholder.model, Grammar.Operand.model,
        Part.ofOperand, Quotation.string, Quotation.value, Escaped.meaning_ofText, Wording.text]

private theorem text_pattern (wordings : List Wording) :
    String.ofList (pattern wordings).text = source wordings := by
  have spelled : (wordings.filterMap element?).flatMap Grammar.Element.text =
      wordings.flatMap spelling := by
    induction wordings with
    | nil => rfl
    | cons wording wordings ih =>
      cases found : wording.element? with
      | none =>
        obtain ⟨spelling, -⟩ := of_element?_eq_none found
        rw [List.filterMap_cons_none found, ih, List.flatMap_cons, spelling, List.nil_append]
      | some element =>
        obtain ⟨spelling, -⟩ := of_element?_eq_some found
        rw [List.filterMap_cons_some found, List.flatMap_cons, ih, List.flatMap_cons, spelling]
  rw [source, Grammar.Pattern.text, pattern, spelled]

/-- The texts become one literal, or none where nothing is written. -/
theorem parts_pattern (wordings : List Wording) :
    ∃ texts : List String, (pattern wordings).model.parts = texts.map (.literal · none) ∧
      texts.length ≤ 1 ∧ String.join texts = whole wordings := by
  simp only [pattern, Grammar.Pattern.model, Pattern.ofParts]
  induction wordings with
  | nil => exact ⟨[], rfl, Nat.zero_le 1, rfl⟩
  | cons wording wordings ih =>
    obtain ⟨texts, parts, few, joined⟩ := ih
    have more : whole (wording :: wordings) = wording.text ++ whole wordings := String.join_cons
    cases found : wording.element? with
    | none =>
      obtain ⟨-, empty⟩ := of_element?_eq_none found
      rw [List.filterMap_cons_none found, more, empty, String.empty_append]
      exact ⟨texts, parts, few, joined⟩
    | some element =>
      obtain ⟨-, literal⟩ := of_element?_eq_some found
      rw [List.filterMap_cons_some found, List.map_cons, Pattern.mergeLiterals_cons, literal, parts,
        more, ← joined]
      have single (text : String) : String.join [text] = text := by
        rw [String.join_cons, String.join_nil, String.append_empty]
      refine ⟨[wording.text ++ String.join texts], ?_, Nat.le_refl 1, single _⟩
      match texts, few with
      | [], _ =>
        rw [String.join_nil, String.append_empty]
        rfl
      | [text], _ =>
        rw [single text]
        rfl

private theorem parse_source (wordings : List Wording) :
    Message.parse (source wordings) = (⟨.pattern (pattern wordings).model, none⟩, []) := by
  rw [← text_pattern]
  exact Grammar.parse_pattern (pattern wordings)

end Wording

section resolution

variable [Monad m] [LawfulMonad m] (formatter : Formatter m) (scope : Scope)

private theorem partPieces_literals (descend : Descent m) (context : Context m) (texts : List String) :
    partPieces descend context (texts.map (.literal · none)) =
      pure (texts.map (.literal · .empty)) := by
  induction texts with
  | nil => rfl
  | cons text texts ih => simp [partPieces, partPiece, ih]

private theorem render_literals (locales : List Locale) (texts : List String) :
    Piece.render locales (texts.map (.literal · .empty)) = String.join texts := by
  induction texts with
  | nil => rfl
  | cons text texts ih => rw [List.map_cons, Piece.render, ih, Piece.localized, String.join_cons]

/-- Every text survives: with any formatter, and whatever is bound, the pattern of some texts is read
without an error and formats as the texts one after the other. It comes to one literal piece, or to
none if nothing is written. -/
theorem format_verbatim (formatter : Formatter m) (scope : Scope) (wordings : List Wording) :
    let parsed := Message.parse (Wording.source wordings)
    parsed.2 = [] ∧
    formatter.format parsed.1 scope = pure (String.join (wordings.map Wording.text)) ∧
    ∃ texts : List String, texts.length ≤ 1 ∧
      formatter.pieces parsed.1 scope = pure (texts.map (.literal · .empty)) := by
  intro parsed
  have read : parsed = (⟨.pattern (Wording.pattern wordings).model, none⟩, []) :=
    Wording.parse_source wordings
  obtain ⟨texts, parts, few, joined⟩ := Wording.parts_pattern wordings
  have pieces : formatter.pieces parsed.1 scope = pure (texts.map (.literal · .empty)) := by
    simp [read, parts, Formatter.pieces, Context.resolve, resolveBody, partPieces_literals,
      Metadata.mergeOptional]
  refine ⟨by rw [read], ?_, texts, few, pieces⟩
  rw [Formatter.format, pieces, pure_bind, render_literals, joined]
  rfl

/-- A brace as it is, a bar and a backslash in quotes, and an empty text in each way. -/
theorem format_verbatim_reserved :
    let wordings : List Wording := [.plain "\x7b", .quoted "|\\", .plain "", .quoted ""]
    let formatter : Formatter Id := .standard .listed
    let parsed := Message.parse (Wording.source wordings)
    Wording.source wordings = "\x7b\\\x7b\x7b|\\|\\\\|\x7d\x7b||\x7d\x7d" ∧
    parsed.2 = [] ∧ formatter.format parsed.1 .empty = pure "\x7b|\\" := by
  intro wordings formatter parsed
  have spelled : Wording.source wordings = "\x7b\\\x7b\x7b|\\|\\\\|\x7d\x7b||\x7d\x7d" := by
    decide +kernel
  obtain ⟨clean, text, -⟩ := format_verbatim formatter .empty wordings
  exact ⟨spelled, clean, text⟩

end resolution

end Phrasebook
