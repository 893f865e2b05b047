import Phrasebook.Proofs.Grammar.Token
import Phrasebook.Syntax.Placeholder

namespace Phrasebook.Grammar

open Text (Cursor byteLength)
open Syntax (Span Token OptionEntry PlaceholderBody Reading Error)

def Quotation.token (offset : Nat) (quotation : Quotation) : Token :=
  ⟨⟨offset, offset + byteLength quotation.text⟩, String.ofList quotation.value⟩

def Variable.token (offset : Nat) (binding : Variable) : Token :=
  ⟨⟨offset, offset + byteLength binding.text⟩, String.ofList binding.name.text⟩

def Word.token (offset : Nat) (word : Word) : Token :=
  ⟨⟨offset, offset + byteLength word.text⟩, String.ofList word.text⟩

/-- Quoted text or a variable. -/
inductive Operand where
  | quoted (node : Quotation)
  | binding (node : Variable)

namespace Operand

def text : Operand → List Char
  | .quoted node => node.text
  | .binding node => node.text

/-- The syntax tree of an operand that starts at an offset. -/
def node (offset : Nat) : Operand → Syntax.Operand
  | .quoted node => .quoted (node.token offset)
  | .binding node => .variable (node.token offset)

@[simp] theorem node_span_start (offset : Nat) (operand : Operand) :
    (operand.node offset).span.start = offset := by
  cases operand <;> rfl

end Operand

/-- Quoted text, a word or a variable. -/
inductive OptionValue where
  | quoted (node : Quotation)
  | word (node : Word)
  | binding (node : Variable)

namespace OptionValue

def text : OptionValue → List Char
  | .quoted node => node.text
  | .word node => node.text
  | .binding node => node.text

def node (offset : Nat) : OptionValue → Syntax.OptionValue
  | .quoted node => .quoted (node.token offset)
  | .word node => .word (node.token offset)
  | .binding node => .variable (node.token offset)

end OptionValue

/-- An option: a name, an equals sign and a value, with blanks on both sides of the sign. -/
structure Setting where
  name : Name
  before : Blanks
  after : Blanks
  value : OptionValue

namespace Setting

/-- How an option starts, up to its value. -/
def opening (setting : Setting) : List Char :=
  setting.name.text ++ (setting.before.text ++ '=' :: setting.after.text)

def text (setting : Setting) : List Char := setting.opening ++ setting.value.text

def node (offset : Nat) (setting : Setting) : OptionEntry :=
  ⟨⟨offset, offset + byteLength setting.text⟩, String.ofList setting.name.text,
    setting.value.node (offset + byteLength setting.opening)⟩

end Setting

/-- Options, each after a gap. -/
abbrev Settings := List (Gap × Setting)

namespace Settings

def text : Settings → List Char
  | [] => []
  | (gap, setting) :: more => gap.text ++ (setting.text ++ text more)

def nodes (offset : Nat) : Settings → List OptionEntry
  | [] => []
  | (gap, setting) :: more =>
    let start := offset + byteLength gap.text
    setting.node start :: nodes (start + byteLength setting.text) more

end Settings

/-- A name with options after it. -/
structure Signature where
  name : Name
  settings : Settings

namespace Signature

def text (signature : Signature) : List Char := signature.name.text ++ signature.settings.text

def options (offset : Nat) (signature : Signature) : List OptionEntry :=
  signature.settings.nodes (offset + byteLength signature.name.text)

end Signature

/-- What stands between the braces and the blanks inside them. -/
inductive Content where
  | plain (node : Operand)
  | call (operand : Option Operand) (gap : Blanks) (signature : Signature)
  | opening (signature : Signature)
  | closing (name : Name)

namespace Content

/-- What a call is about, and the blanks up to its colon. -/
def subject (operand : Option Operand) (gap : Blanks) : List Char :=
  (operand.map Operand.text).getD [] ++ gap.text

def text : Content → List Char
  | .plain node => node.text
  | .call operand gap signature => subject operand gap ++ ':' :: signature.text
  | .opening signature => '+' :: signature.text
  | .closing name => '-' :: name.text

/-- The syntax tree of content that starts at an offset. The span of a call without an operand
starts at its colon. -/
def body (offset : Nat) (content : Content) : PlaceholderBody :=
  let stop := offset + byteLength content.text
  match content with
  | .plain (.quoted node) => .quoted (node.token offset)
  | .plain (.binding node) => .variable (node.token offset)
  | .call operand gap signature =>
    let colon := offset + byteLength (subject operand gap)
    let start := if operand.isSome then offset else colon
    .call ⟨⟨start, stop⟩, operand.map (Operand.node offset), String.ofList signature.name.text,
      signature.options (colon + 1)⟩
  | .opening signature =>
    .opening ⟨⟨offset, stop⟩, String.ofList signature.name.text, signature.options (offset + 1)⟩
  | .closing name => .closing ⟨⟨offset, stop⟩, String.ofList name.text, []⟩

end Content

/-- A placeholder: content in braces, with blanks on both sides of it. -/
structure Placeholder where
  before : Blanks
  content : Content
  after : Blanks

namespace Placeholder

def text (placeholder : Placeholder) : List Char :=
  '{' :: (placeholder.before.text ++
    (placeholder.content.text ++ (placeholder.after.text ++ ['}'])))

/-- The syntax tree of a placeholder that starts at an offset. -/
def node (offset : Nat) (placeholder : Placeholder) : Syntax.Placeholder :=
  ⟨⟨offset, offset + byteLength placeholder.text⟩,
    placeholder.content.body (offset + 1 + byteLength placeholder.before.text)⟩

end Placeholder

open Syntax

section values

private theorem Operand.stops_isBlank (operand : Operand) (rest : List Char) :
    Stops isBlank (operand.text ++ rest) := by
  cases operand <;> simp [text, Quotation.text, Variable.text] <;> decide

theorem readOperand_append (operand : Operand) {rest : List Char} (stop : Stops isNameChar rest)
    (offset : Nat) :
    readOperand ⟨offset, operand.text ++ rest⟩ =
      ⟨some (operand.node offset), [], ⟨offset + byteLength operand.text, rest⟩⟩ := by
  cases operand with
  | quoted node =>
    have bar : Cursor.isAt '|' ⟨offset, node.text ++ rest⟩ = true := rfl
    simp [readOperand, Operand.text, Operand.node, Quotation.token, bar, readQuoted_append,
      Reading.map]
  | binding node =>
    have bar : Cursor.isAt '|' ⟨offset, node.text ++ rest⟩ = false := rfl
    have sigil : Cursor.isAt '$' ⟨offset, node.text ++ rest⟩ = true := rfl
    simp [readOperand, Operand.text, Operand.node, Variable.token, bar, sigil,
      readVariable_append node stop, Reading.map]

private theorem readOperand_sigil {c : Char} (sigil : c ∈ [':', '+', '-']) (offset : Nat)
    (rest : List Char) : readOperand ⟨offset, c :: rest⟩ = ⟨none, [], ⟨offset, c :: rest⟩⟩ := by
  simp only [List.mem_cons, List.not_mem_nil, or_false] at sigil
  rcases sigil with rfl | rfl | rfl <;> simp [readOperand]

theorem OptionValue.stops_isBlank (value : OptionValue) (rest : List Char) :
    Stops isBlank (value.text ++ rest) := by
  cases value with
  | quoted node => simp [text, Quotation.text]; decide
  | binding node => simp [text, Variable.text]; decide
  | word node =>
    obtain ⟨run, nonempty, continues⟩ := node
    cases run with
    | nil => exact absurd rfl nonempty
    | cons c run => simp [text, not_isBlank_of_isNameChar (continues c (by simp))]

theorem Word.not_isAt (word : Word) {c : Char} (sigil : isNameChar c = false) (offset : Nat)
    (rest : List Char) : Cursor.isAt c ⟨offset, word.text ++ rest⟩ = false := by
  obtain ⟨run, nonempty, continues⟩ := word
  cases run with
  | nil => exact absurd rfl nonempty
  | cons d run =>
    have named := continues d (by simp)
    simp only [List.cons_append, isAt_cons, beq_eq_false_iff_ne]
    rintro rfl
    simp [sigil] at named

theorem Word.follows_isNameChar (word : Word) (offset : Nat) (rest : List Char) :
    Cursor.follows isNameChar ⟨offset, word.text ++ rest⟩ = true := by
  obtain ⟨run, nonempty, continues⟩ := word
  cases run with
  | nil => exact absurd rfl nonempty
  | cons c run => exact continues c (by simp)

theorem readWordToken_append (word : Word) {rest : List Char} (stop : Stops isNameChar rest)
    (offset : Nat) :
    readWordToken ⟨offset, word.text ++ rest⟩ =
      ⟨word.token offset, [], ⟨offset + byteLength word.text, rest⟩⟩ := by
  simp [readWordToken, readWord_append word.continues stop, word.follows_isNameChar, Word.token]

theorem readOptionValue_append (value : OptionValue) {rest : List Char}
    (stop : Stops isNameChar rest) (offset : Nat) :
    readOptionValue ⟨offset, value.text ++ rest⟩ =
      ⟨value.node offset, [], ⟨offset + byteLength value.text, rest⟩⟩ := by
  cases value with
  | quoted node =>
    have bar : Cursor.isAt '|' ⟨offset, node.text ++ rest⟩ = true := rfl
    simp [readOptionValue, OptionValue.text, OptionValue.node, Quotation.token, bar,
      readQuoted_append, Reading.map]
  | binding node =>
    have bar : Cursor.isAt '|' ⟨offset, node.text ++ rest⟩ = false := rfl
    have sigil : Cursor.isAt '$' ⟨offset, node.text ++ rest⟩ = true := rfl
    simp [readOptionValue, OptionValue.text, OptionValue.node, Variable.token, bar, sigil,
      readVariable_append node stop, Reading.map]
  | word node =>
    have bar := node.not_isAt (show isNameChar '|' = false by decide) offset rest
    have sigil := node.not_isAt (show isNameChar '$' = false by decide) offset rest
    simp [readOptionValue, OptionValue.text, OptionValue.node, bar, sigil,
      readWordToken_append node stop, Reading.map]

end values

section settings

/-- What may stand behind the content of a placeholder: blanks, and behind them a text that goes on with
neither an option nor a sigil. -/
structure Tail where
  blanks : Blanks
  rest : List Char
  stops : Stops isNameChar (blanks.text ++ rest)
  blank : Stops isBlank rest
  option : Stops isNameStart rest
  sigil : ∀ c ∈ [':', '+', '-'], Stops (· == c) rest

namespace Tail

def text (tail : Tail) : List Char := tail.blanks.text ++ tail.rest

theorem stops_text (tail : Tail) : Stops isNameChar tail.text := tail.stops

/-- Blanks and the closing brace. -/
def closing (after : Blanks) (rest : List Char) : Tail where
  blanks := after
  rest := '}' :: rest
  stops := after.stops_isNameChar (stops_cons.mpr (by decide))
  blank := stops_cons.mpr (by decide)
  option := stops_cons.mpr (by decide)
  sigil := by simp

theorem skipBlank_text (tail : Tail) (offset : Nat) :
    skipBlank ⟨offset, tail.text⟩ = ⟨offset + byteLength tail.blanks.text, tail.rest⟩ :=
  skipBlank_append tail.blanks tail.blank offset

private theorem not_isAt (tail : Tail) {c : Char} (sigil : c ∈ [':', '+', '-']) (offset : Nat) :
    Cursor.isAt c ⟨offset, tail.rest⟩ = false := follows_of_stops (tail.sigil c sigil) offset

end Tail

theorem readOption?_append (gap : Gap) (setting : Setting) {rest : List Char}
    (stop : Stops isNameChar rest) (offset : Nat) :
    readOption? ⟨offset, gap.text ++ (setting.text ++ rest)⟩ =
      some ⟨setting.node (offset + byteLength gap.text), [],
        ⟨offset + byteLength gap.text + byteLength setting.text, rest⟩⟩ := by
  obtain ⟨name, before, after, value⟩ := setting
  have start := skipBlank_append gap.toBlanks (name.stops_isBlank
    (before.text ++ '=' :: (after.text ++ (value.text ++ rest)))) offset
  have equals : Stops isNameChar (before.text ++ '=' :: (after.text ++ (value.text ++ rest))) :=
    before.stops_isNameChar (stops_cons.mpr (by decide))
  have sign (place : Nat) := skipBlank_append before
    (stops_cons.mpr (by decide) : Stops isBlank ('=' :: (after.text ++ (value.text ++ rest)))) place
  have ready (place : Nat) := skipBlank_append after (value.stops_isBlank rest) place
  have size (place : Nat) : place + byteLength (Setting.text ⟨name, before, after, value⟩) =
      place + byteLength (Setting.opening ⟨name, before, after, value⟩) + byteLength value.text := by
    simp [Setting.text, Nat.add_assoc]
  simp only [Setting.node, size]
  simp [readOption?, Setting.text, Setting.opening, start, gap.follows_isBlank,
    name.follows_isNameStart, readWord_append name.isNameChar_of_mem equals, sign, expect, ready,
    readOptionValue_append value stop, Nat.add_assoc]

private theorem readOption?_tail (tail : Tail) (offset : Nat) : readOption? ⟨offset, tail.text⟩ = none := by
  have named (place : Nat) := follows_of_stops tail.option place
  simp [readOption?, tail.skipBlank_text, named]

theorem Settings.stops_isNameChar (settings : Settings) {rest : List Char}
    (stop : Stops isNameChar rest) : Stops isNameChar (settings.text ++ rest) := by
  cases settings with
  | nil => exact stop
  | cons entry more =>
    rw [Settings.text, List.append_assoc]
    exact entry.1.stops_isNameChar _

/-- The loop over options reads each of them, and ends where they do. -/
theorem many_readOption?_append (settings : Settings) (tail : Tail) (offset : Nat) :
    many readOption? readOption?_progresses ⟨offset, settings.text ++ tail.text⟩ =
      ⟨settings.nodes offset, [], ⟨offset + byteLength settings.text, tail.text⟩⟩ := by
  induction settings generalizing offset with
  | nil => exact many_of_none _ (readOption?_tail tail offset)
  | cons entry more ih =>
    obtain ⟨gap, setting⟩ := entry
    have found := readOption?_append gap setting (Settings.stops_isNameChar more tail.stops_text) offset
    rw [Settings.text, List.append_assoc, List.append_assoc, many_of_some _ found, ih]
    simp [Settings.nodes, Nat.add_assoc]

theorem readSignature_append (signature : Signature) (tail : Tail) (offset : Nat) :
    readSignature ⟨offset, signature.text ++ tail.text⟩ =
      ⟨(String.ofList signature.name.text, signature.options offset), [],
        ⟨offset + byteLength signature.text, tail.text⟩⟩ := by
  obtain ⟨name, settings⟩ := signature
  have stop := settings.stops_isNameChar tail.stops_text
  simp [readSignature, Signature.text, Signature.options, readName_append name stop,
    many_readOption?_append, Nat.add_assoc]

end settings

section placeholders

theorem closingBrace_append {run : List Char} (unclosed : '}' ∉ run) (rest : List Char)
    (offset : Nat) :
    closingBrace ⟨offset, run ++ '}' :: rest⟩ = ⟨offset + byteLength run, '}' :: rest⟩ := by
  refine skipWhile_append ?_ (stops_cons.mpr (by decide)) offset
  intro c member
  rw [bne_iff_ne]
  rintro rfl
  exact unclosed member

private theorem closeBody_closing (here : Cursor) (body : PlaceholderBody) (after : Blanks)
    (rest : List Char) (offset : Nat) :
    closeBody here body [] ⟨offset, (Tail.closing after rest).text⟩ =
      ⟨⟨⟨here.offset, offset + byteLength after.text + 1⟩, body⟩, [],
        ⟨offset + byteLength after.text + 1, rest⟩⟩ := by
  have brace (place : Nat) : closingBrace ⟨place, '}' :: rest⟩ = ⟨place, '}' :: rest⟩ :=
    closingBrace_append List.not_mem_nil rest place
  simp [closeBody, Tail.skipBlank_text, Tail.closing, brace, expect]

/-- Up to a sigil there are only blanks to pass, and no operand is read there. -/
theorem readOperand_blanks (blanks : Blanks) {c : Char} (sigil : c ∈ [':', '+', '-']) (offset : Nat)
    (tail : List Char) :
    readOperand (skipBlank ⟨offset, blanks.text ++ c :: tail⟩) =
      ⟨none, [], ⟨offset + byteLength blanks.text, c :: tail⟩⟩ := by
  have stop : Stops isBlank (c :: tail) := by
    simp only [List.mem_cons, List.not_mem_nil, or_false] at sigil
    rcases sigil with rfl | rfl | rfl <;> simp <;> decide
  rw [skipBlank_append blanks stop offset, readOperand_sigil sigil]

private theorem readPlaceholder_colon (here : Cursor) (found : Option Syntax.Operand) {next : Cursor}
    {place : Nat} {signature : Signature} {tail : Tail}
    (operand : readOperand (skipBlank here.advance) = ⟨found, [], next⟩)
    (colon : skipBlank next = ⟨place, ':' :: (signature.text ++ tail.text)⟩) :
    let stop := place + 1 + byteLength signature.text
    readPlaceholder here =
      closeBody here (.call ⟨⟨(found.map fun node => node.span.start).getD place, stop⟩, found,
        String.ofList signature.name.text, signature.options (place + 1)⟩) [] ⟨stop, tail.text⟩ := by
  simp [readPlaceholder, operand, colon, readSignature_append]

/-- Content is read without errors, as its tree, whatever follows it; what is left is to close it. -/
theorem readPlaceholder_content (before : Blanks) (content : Content) (tail : Tail) {here : Cursor}
    (text : here.rest = '{' :: (before.text ++ (content.text ++ tail.text))) :
    let start := here.offset + 1 + byteLength before.text
    readPlaceholder here =
      closeBody here (content.body start) [] ⟨start + byteLength content.text, tail.text⟩ := by
  obtain ⟨offset, rest⟩ := here
  obtain rfl : rest = _ := text
  cases content with
  | plain operand =>
    have first := skipBlank_append before (operand.stops_isBlank tail.text) (offset + 1)
    have read := readOperand_append operand tail.stops_text
    have sigilless (place : Nat) : ∀ c ∈ [':', '+', '-'], Cursor.isAt c ⟨place, tail.rest⟩ = false :=
      fun c sigil => tail.not_isAt sigil place
    cases operand <;>
      simp [readPlaceholder, Content.text, first, read, tail.skipBlank_text, sigilless,
        Content.body, Operand.node]
  | call operand gap signature =>
    have colon : Stops isBlank (':' :: (signature.text ++ tail.text)) :=
      stops_cons.mpr (by decide)
    cases operand with
    | none =>
      -- Without an operand, the blanks before it and those before the colon are one run.
      have operand := readOperand_blanks (before.append gap)
        (show ':' ∈ [':', '+', '-'] by simp) (offset + 1) (signature.text ++ tail.text)
      have sigil := skipBlank_of_stops colon (offset + 1 + byteLength (before.append gap).text)
      have read := readPlaceholder_colon ⟨offset, '{' :: ((before.append gap).text ++
        ':' :: (signature.text ++ tail.text))⟩ none operand sigil
      simp only [Blanks.append_text, List.append_assoc] at read
      simp [Content.text, Content.subject, read, Content.body, Nat.add_assoc]
    | some operand =>
      have stop : Stops isNameChar (gap.text ++ ':' :: (signature.text ++ tail.text)) :=
        gap.stops_isNameChar (stops_cons.mpr (by decide))
      have first := skipBlank_append before (operand.stops_isBlank
        (gap.text ++ ':' :: (signature.text ++ tail.text))) (offset + 1)
      have sigil := skipBlank_append gap colon
        (offset + 1 + byteLength before.text + byteLength operand.text)
      have read := readPlaceholder_colon ⟨offset, '{' :: (before.text ++ (operand.text ++
        (gap.text ++ ':' :: (signature.text ++ tail.text))))⟩
        (some (operand.node (offset + 1 + byteLength before.text)))
        (by simp [first, readOperand_append operand stop]) sigil
      simp [Content.text, Content.subject, read, Content.body, Nat.add_assoc]
  | opening signature =>
    have first := readOperand_blanks before (show '+' ∈ [':', '+', '-'] by simp) (offset + 1)
      (signature.text ++ tail.text)
    have still := skipBlank_of_stops (stops_cons.mpr (by decide) :
      Stops isBlank ('+' :: (signature.text ++ tail.text)))
    simp [readPlaceholder, Content.text, first, still, readSignature_append, Content.body,
      Nat.add_assoc]
  | closing name =>
    have first := readOperand_blanks before (show '-' ∈ [':', '+', '-'] by simp) (offset + 1)
      (name.text ++ tail.text)
    have still := skipBlank_of_stops (stops_cons.mpr (by decide) :
      Stops isBlank ('-' :: (name.text ++ tail.text)))
    have read := readSignature_append ⟨name, []⟩ tail
    simp only [Signature.text, Signature.options, Settings.text, Settings.nodes,
      List.append_nil] at read
    simp [readPlaceholder, Content.text, first, still, read, optionErrors, Content.body,
      Nat.add_assoc]

/-- A placeholder is read up to its closing brace, without errors, as the tree of its derivation. -/
theorem readPlaceholder_append (placeholder : Placeholder) (rest : List Char) (offset : Nat) :
    readPlaceholder ⟨offset, placeholder.text ++ rest⟩ =
      ⟨placeholder.node offset, [], ⟨offset + byteLength placeholder.text, rest⟩⟩ := by
  obtain ⟨before, content, after⟩ := placeholder
  have shape : Placeholder.text ⟨before, content, after⟩ ++ rest =
      '{' :: (before.text ++ (content.text ++ (Tail.closing after rest).text)) := by
    simp [Placeholder.text, Tail.text, Tail.closing]
  rw [shape, readPlaceholder_content before content (Tail.closing after rest) rfl, closeBody_closing]
  simp [Placeholder.node, Placeholder.text]
  omega

end placeholders

end Phrasebook.Grammar
