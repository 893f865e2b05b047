import Phrasebook.Syntax.Token

/-!
Placeholders: quoted text, a variable, a function call or a markup marker in braces. Anything else
between the braces is junk.
-/

namespace Phrasebook.Syntax

open Text (Cursor)
open Text.Cursor (Reaches Advances)

/-- The operand of a placeholder, if one follows. -/
def readOperand (here : Cursor) : Reading (Option Operand) :=
  if here.isAt '|' then (readQuoted here).map fun token => some (.quoted token)
  else if here.isAt '$' then (readVariable here).map fun token => some (.variable token)
  else ⟨none, [], here⟩

/-- A word that has to be here, as a token. -/
def readWordToken (here : Cursor) : Reading Token :=
  let word := readWord here
  ⟨⟨⟨here.offset, word.next.offset⟩, word.value⟩,
    if here.follows isNameChar then [] else [.emptyToken here.offset], word.next⟩

/-- The value of an option: quoted text, a variable or a word. -/
def readOptionValue (here : Cursor) : Reading OptionValue :=
  if here.isAt '|' then (readQuoted here).map .quoted
  else if here.isAt '$' then (readVariable here).map .variable
  else (readWordToken here).map .word

/-- An option, if blanks and a name follow. Where the equals sign is missing, the value is still
read. -/
def readOption? : Step OptionEntry := fun here =>
  let start := skipBlank here
  if here.follows isBlank && start.follows isNameStart then
    let name := readWord start
    let equals := expect '=' (skipBlank name.next)
    let value := readOptionValue (skipBlank equals.next)
    some ⟨⟨⟨start.offset, value.next.offset⟩, name.value, value.value⟩,
      equals.errors ++ value.errors, value.next⟩
  else none

theorem reaches_readOperand (here : Cursor) : Reaches here (readOperand here).next := by
  unfold readOperand
  split
  · next atBar => exact (advances_readQuoted atBar).1
  · split
    · exact reaches_readVariable here
    · exact Reaches.refl here

theorem reaches_readOptionValue (here : Cursor) : Reaches here (readOptionValue here).next := by
  unfold readOptionValue
  split
  · next atBar => exact (advances_readQuoted atBar).1
  · split
    · exact reaches_readVariable here
    · exact reaches_readWord here

theorem readOption?_progresses : readOption?.Progresses := by
  intro here reading found
  simp only [readOption?] at found
  split at found
  · next present =>
    obtain rfl := Option.some.inj found
    have name := advances_readWord (follows_isNameChar (Bool.and_eq_true_iff.mp present).2)
    exact (reaches_skipBlank here).trans_advances <| name.trans_reaches <|
      (reaches_skipBlank _).trans <| (reaches_expect '=' _).trans <|
        (reaches_skipBlank _).trans (reaches_readOptionValue _)
  · cases found

/-- A name and its options, after a sigil. -/
def readSignature (here : Cursor) : Reading (String × List OptionEntry) :=
  let name := readName here
  let options := many readOption? readOption?_progresses name.next
  ⟨(name.value, options.value), name.errors ++ options.errors, options.next⟩

theorem reaches_readSignature (here : Cursor) : Reaches here (readSignature here).next :=
  (reaches_readName here).trans (reaches_many readOption?_progresses _)

/-- The place of the brace that closes a placeholder, or the end of the source. -/
def closingBrace (here : Cursor) : Cursor := here.skipWhile (· != '}')

/-- Closes the placeholder that opens at `here` after its body. What stands before the closing brace
is extra content. -/
def closeBody (here : Cursor) (body : PlaceholderBody) (errors : List Error) (after : Cursor) :
    Reading Placeholder :=
  let extra := skipBlank after
  let brace := closingBrace extra
  let closed := expect '}' brace
  let extraErrors : List Error :=
    if extra.offset = brace.offset then [] else [.extraContent ⟨extra.offset, brace.offset⟩]
  ⟨⟨⟨here.offset, closed.next.offset⟩, body⟩, errors ++ extraErrors ++ closed.errors, closed.next⟩

/-- Closes the placeholder that opens at `here` with junk from `start` on. The junk is one character,
or all up to the closing brace if more than blanks follow, or nothing where the brace comes first. -/
def closeJunk (here start : Cursor) : Reading Placeholder :=
  let first := if start.isAt '}' then start else start.advance
  let extra := skipBlank first
  let brace := closingBrace extra
  let closed := expect '}' brace
  let last := if extra.offset = brace.offset then first else brace
  let span : Span := ⟨start.offset, last.offset⟩
  ⟨⟨⟨here.offset, closed.next.offset⟩, .junk ⟨span, String.ofList (start.upTo last)⟩⟩,
    .malformed span :: closed.errors, closed.next⟩

/-- The span from the first option to the last is extra content on a closing marker. -/
def optionErrors (options : List OptionEntry) : List Error :=
  match options.head?, options.getLast? with
  | some first, some last => [.extraContent ⟨first.span.start, last.span.stop⟩]
  | _, _ => []

/-- The placeholder whose opening brace follows. Markup takes no operand, and a closing marker no
options: they are errors, and dropped. -/
def readPlaceholder (here : Cursor) : Reading Placeholder :=
  let operand := readOperand (skipBlank here.advance)
  let sigil := skipBlank operand.next
  let signature := readSignature sigil.advance
  let options := signature.value.2
  let operandErrors : List Error :=
    operand.value.toList.map (fun node => .extraContent node.span) ++ operand.errors
  let span : Span := ⟨sigil.offset, signature.next.offset⟩
  if sigil.isAt ':' then
    let start := (operand.value.map fun node => node.span.start).getD sigil.offset
    closeBody here
      (.call ⟨⟨start, signature.next.offset⟩, operand.value, signature.value.1, options⟩)
      (operand.errors ++ signature.errors) signature.next
  else if sigil.isAt '+' then
    closeBody here (.opening ⟨span, signature.value.1, options⟩)
      (operandErrors ++ signature.errors) signature.next
  else if sigil.isAt '-' then
    closeBody here (.closing ⟨span, signature.value.1, []⟩)
      (operandErrors ++ signature.errors ++ optionErrors options) signature.next
  else match operand.value with
    | some (.quoted token) => closeBody here (.quoted token) operand.errors operand.next
    | some (.variable token) => closeBody here (.variable token) operand.errors operand.next
    | none => closeJunk here sigil

theorem reaches_closingBrace (here : Cursor) : Reaches here (closingBrace here) :=
  Text.Cursor.reaches_skipWhile (· != '}') here

theorem reaches_closeBody (here : Cursor) (body : PlaceholderBody) (errors : List Error)
    (after : Cursor) : Reaches after (closeBody here body errors after).next :=
  (reaches_skipBlank after).trans <|
    (reaches_closingBrace _).trans (reaches_expect '}' _)

/-- Junk takes one character first, unless that is the brace. -/
theorem reaches_junk_first (start : Cursor) :
    Reaches start (if start.isAt '}' then start else start.advance) := by
  split
  · exact Reaches.refl start
  · exact Text.Cursor.reaches_advance start

/-- Junk ends behind its first character or at the closing brace; either lies on the way to what
follows the placeholder. -/
theorem reaches_junk_end (first : Cursor) :
    let brace := closingBrace (skipBlank first)
    let last := if (skipBlank first).offset = brace.offset then first else brace
    Reaches first last ∧ Reaches last (expect '}' brace).next := by
  intro brace last
  have skipped : Reaches first brace :=
    (reaches_skipBlank first).trans (reaches_closingBrace _)
  have closed := reaches_expect '}' brace
  by_cases onlyBlanks : (skipBlank first).offset = brace.offset
  · simpa only [last, if_pos onlyBlanks] using ⟨Reaches.refl first, skipped.trans closed⟩
  · simpa only [last, if_neg onlyBlanks] using ⟨skipped, closed⟩

theorem reaches_closeJunk (here start : Cursor) : Reaches start (closeJunk here start).next :=
  (reaches_junk_first start).trans <| (reaches_skipBlank _).trans <|
    (reaches_closingBrace _).trans (reaches_expect '}' _)

theorem advances_readPlaceholder {here : Cursor} (more : here.rest ≠ []) :
    Advances here (readPlaceholder here).next := by
  have operand := (Text.Cursor.advances_advance more).trans_reaches <|
    (reaches_skipBlank here.advance).trans (reaches_readOperand _)
  have sigil := operand.trans_reaches (reaches_skipBlank _)
  have signature := sigil.trans_reaches <|
    (Text.Cursor.reaches_advance _).trans (reaches_readSignature _)
  unfold readPlaceholder
  simp only
  split
  · exact signature.trans_reaches (reaches_closeBody ..)
  · split
    · exact signature.trans_reaches (reaches_closeBody ..)
    · split
      · exact signature.trans_reaches (reaches_closeBody ..)
      · split
        · exact operand.trans_reaches (reaches_closeBody ..)
        · exact operand.trans_reaches (reaches_closeBody ..)
        · exact sigil.trans_reaches (reaches_closeJunk ..)

/-- Empty junk at a place, with its error. -/
def emptyJunk (offset : Nat) (error : Error) (next : Cursor) : Reading Placeholder :=
  ⟨⟨⟨offset, offset⟩, .junk ⟨⟨offset, offset⟩, ""⟩⟩, [error], next⟩

/-- Reads the placeholder whose opening brace is at an offset of the source. Where no brace opens,
the answer is empty junk at that offset, or at the end if the offset lies behind it. -/
def parsePlaceholder (source : List Char) (start : Nat) : Placeholder × List Error :=
  let reading :=
    match (Cursor.at? source start).filter (·.isAt '{') with
    | some here => readPlaceholder here
    | none =>
      let offset := min start (Text.byteLength source)
      emptyJunk offset (.malformed ⟨offset, offset⟩) ⟨offset, []⟩
  (reading.value, reading.errors)

end Phrasebook.Syntax
