import Phrasebook.Syntax.Template

/-!
Reading by offsets into the source. Every look at the source is a slice of it, which fails where an
offset is out of range or inside a character, and offsets move on by counted bytes. A repetition that
does not move on fails too.
-/

namespace Phrasebook.Syntax

open Text (byteLength slice? sliceFrom?)

/-- A node, the errors found while it was read, and the offset behind it. -/
structure Stretch (α : Type) where
  value : α
  errors : List Error
  next : Nat
  deriving DecidableEq, Repr

def Stretch.map (f : α → β) (stretch : Stretch α) : Stretch β :=
  { stretch with value := f stretch.value }

/-- A step that may find nothing to read, and whose slices may fail. -/
abbrev SlicedStep (α : Type) := Nat → Option (Option (Stretch α))

namespace Slicing

variable (source : List Char)

/-- Whether a character follows that satisfies a test. -/
def follows (test : Char → Bool) (pos : Nat) : Option Bool :=
  (sliceFrom? source pos).map fun rest => rest.head?.any test

/-- Whether a given character follows. -/
def isAt (c : Char) (pos : Nat) : Option Bool := follows source (· == c) pos

/-- The run of characters that follows and satisfies a test. -/
def run (test : Char → Bool) (pos : Nat) : Option (List Char) :=
  (sliceFrom? source pos).map (List.takeWhile test)

/-- The offset behind the blanks that follow. -/
def skipBlank (pos : Nat) : Option Nat :=
  (run source isBlank pos).map fun blanks => pos + byteLength blanks

/-- The offset behind a keyword, which no name character may follow. -/
def keyword? (word : List Char) (pos : Nat) : Option (Option Nat) := do
  let rest ← sliceFrom? source pos
  if word.isPrefixOf rest then
    let next := pos + byteLength word
    return if ← follows source isNameChar next then none else some next
  else return none

/-- A required character of one byte: it is passed, or its absence is an error. -/
def expect (c : Char) (pos : Nat) : Option (Stretch Unit) := do
  if ← isAt source c pos then return ⟨(), [], pos + 1⟩
  else return ⟨(), [.missingChar pos c], pos⟩

/-- Repeats a step until it finds nothing. It fails if the step goes on at no later offset of the
source. -/
def many (step : SlicedStep α) (pos : Nat) : Option (Stretch (List α)) := do
  match ← step pos with
  | none => return ⟨[], [], pos⟩
  | some first =>
    if pos < first.next ∧ first.next ≤ byteLength source then
      let more ← many step first.next
      return ⟨first.value :: more.value, first.errors ++ more.errors, more.next⟩
    else none
termination_by byteLength source - pos

/-! ### Tokens -/

/-- The run of name characters that follows, which may be empty. -/
def readWord (pos : Nat) : Option (Stretch String) :=
  (run source isNameChar pos).map fun word => ⟨String.ofList word, [], pos + byteLength word⟩

/-- A name that has to be here. -/
def readName (pos : Nat) : Option (Stretch String) := do
  if ← follows source isNameStart pos then readWord source pos
  else return ⟨"", [.emptyToken pos], pos⟩

/-- The variable whose dollar sign, of one byte, follows. -/
def readVariable (pos : Nat) : Option (Stretch Token) := do
  let name ← readName source (pos + 1)
  return ⟨⟨⟨pos, name.next⟩, name.value⟩, name.errors, name.next⟩

/-- What a backslash stands for before some text: itself, which is an error, or the reserved character or
backslash that comes next. -/
def unescape (reserved : List Char) (pos : Nat) (rest : List Char) : Stretch Char :=
  match rest.head?.filter fun c => c == '\\' || reserved.contains c with
  | some c => ⟨c, [], pos + 2⟩
  | none => ⟨'\\', [.malformed ⟨pos, pos + 1⟩], pos + 1⟩

/-- One character of a text, unless a reserved one or the end follows. -/
def escaped? (reserved : List Char) : SlicedStep Char := fun pos => do
  match (← sliceFrom? source pos).head? with
  | none => return none
  | some '\\' => return some (unescape reserved pos (← sliceFrom? source (pos + 1)))
  | some c => return if reserved.contains c then none else some ⟨c, [], pos + c.utf8Size⟩

/-- The text of a quotation up to its closing bar. -/
def quotedText (pos : Nat) : Option (Stretch (List Char)) := do
  let text ← many source (escaped? source ['|']) pos
  let closed ← expect source '|' text.next
  return ⟨text.value, text.errors ++ closed.errors, closed.next⟩

/-- The quotation whose opening bar, of one byte, follows. -/
def readQuoted (pos : Nat) : Option (Stretch Token) := do
  let body ← quotedText source (pos + 1)
  return ⟨⟨⟨pos, body.next⟩, String.ofList body.value⟩, body.errors, body.next⟩

/-- A word that has to be here, as a token. -/
def readWordToken (pos : Nat) : Option (Stretch Token) := do
  let word ← readWord source pos
  let present ← follows source isNameChar pos
  return ⟨⟨⟨pos, word.next⟩, word.value⟩, if present then [] else [.emptyToken pos], word.next⟩

/-! ### Placeholders -/

/-- The operand of a placeholder, if one follows. -/
def readOperand (pos : Nat) : Option (Stretch (Option Operand)) := do
  if ← isAt source '|' pos then
    return (← readQuoted source pos).map fun token => some (.quoted token)
  else if ← isAt source '$' pos then
    return (← readVariable source pos).map fun token => some (.variable token)
  else return ⟨none, [], pos⟩

/-- The value of an option: quoted text, a variable or a word. -/
def readOptionValue (pos : Nat) : Option (Stretch OptionValue) := do
  if ← isAt source '|' pos then return (← readQuoted source pos).map .quoted
  else if ← isAt source '$' pos then return (← readVariable source pos).map .variable
  else return (← readWordToken source pos).map .word

/-- An option, if blanks and a name follow. -/
def readOption? : SlicedStep OptionEntry := fun pos => do
  let start ← skipBlank source pos
  if (← follows source isBlank pos) && (← follows source isNameStart start) then
    let name ← readWord source start
    let equals ← expect source '=' (← skipBlank source name.next)
    let value ← readOptionValue source (← skipBlank source equals.next)
    return some ⟨⟨⟨start, value.next⟩, name.value, value.value⟩, equals.errors ++ value.errors,
      value.next⟩
  else return none

/-- A name and its options, after a sigil. -/
def readSignature (pos : Nat) : Option (Stretch (String × List OptionEntry)) := do
  let name ← readName source pos
  let options ← many source (readOption? source) name.next
  return ⟨(name.value, options.value), name.errors ++ options.errors, options.next⟩

/-- The offset of the brace that closes a placeholder, or of the end of the source. -/
def closingBrace (pos : Nat) : Option Nat :=
  (run source (· != '}') pos).map fun passed => pos + byteLength passed

/-- Closes the placeholder that opens at an offset after its body. -/
def closeBody (pos : Nat) (body : PlaceholderBody) (errors : List Error) (after : Nat) :
    Option (Stretch Placeholder) := do
  let extra ← skipBlank source after
  let brace ← closingBrace source extra
  let closed ← expect source '}' brace
  let extraErrors : List Error := if extra = brace then [] else [.extraContent ⟨extra, brace⟩]
  return ⟨⟨⟨pos, closed.next⟩, body⟩, errors ++ extraErrors ++ closed.errors, closed.next⟩

/-- The offset behind the first character of junk, unless that is the brace. -/
def skipJunk (pos : Nat) : Option Nat :=
  (sliceFrom? source pos).map fun rest =>
    match rest.head? with
    | none => pos
    | some c => if c == '}' then pos else pos + c.utf8Size

/-- Closes the placeholder that opens at an offset with junk from `start` on, and cuts the junk out of
the source. -/
def closeJunk (pos start : Nat) : Option (Stretch Placeholder) := do
  let first ← skipJunk source start
  let extra ← skipBlank source first
  let brace ← closingBrace source extra
  let closed ← expect source '}' brace
  let span : Span := ⟨start, if extra = brace then first else brace⟩
  let text ← slice? source span.start span.stop
  return ⟨⟨⟨pos, closed.next⟩, .junk ⟨span, String.ofList text⟩⟩, .malformed span :: closed.errors,
    closed.next⟩

/-- The placeholder whose opening brace, of one byte, follows. -/
def readPlaceholder (pos : Nat) : Option (Stretch Placeholder) := do
  let operand ← readOperand source (← skipBlank source (pos + 1))
  let sigil ← skipBlank source operand.next
  let operandErrors : List Error :=
    operand.value.toList.map (fun node => .extraContent node.span) ++ operand.errors
  if ← isAt source ':' sigil then
    let signature ← readSignature source (sigil + 1)
    let start := (operand.value.map fun node => node.span.start).getD sigil
    closeBody source pos
      (.call ⟨⟨start, signature.next⟩, operand.value, signature.value.1, signature.value.2⟩)
      (operand.errors ++ signature.errors) signature.next
  else if ← isAt source '+' sigil then
    let signature ← readSignature source (sigil + 1)
    closeBody source pos
      (.opening ⟨⟨sigil, signature.next⟩, signature.value.1, signature.value.2⟩)
      (operandErrors ++ signature.errors) signature.next
  else if ← isAt source '-' sigil then
    let signature ← readSignature source (sigil + 1)
    closeBody source pos (.closing ⟨⟨sigil, signature.next⟩, signature.value.1, []⟩)
      (operandErrors ++ signature.errors ++ optionErrors signature.value.2) signature.next
  else match operand.value with
    | some (.quoted token) => closeBody source pos (.quoted token) operand.errors operand.next
    | some (.variable token) => closeBody source pos (.variable token) operand.errors operand.next
    | none => closeJunk source pos sigil

/-- Empty junk at an offset, with its error. -/
def emptyJunk (pos : Nat) (error : Error) : Stretch Placeholder :=
  ⟨⟨⟨pos, pos⟩, .junk ⟨⟨pos, pos⟩, ""⟩⟩, [error], pos⟩

/-- Reads the placeholder whose opening brace is at an offset of the source. This offset alone may be
anywhere: where no slice begins there, no brace opens. -/
def parsePlaceholder (start : Nat) : Option (Placeholder × List Error) :=
  let stretch :=
    if isAt source '{' start = some true then readPlaceholder source start
    else
      let offset := min start (byteLength source)
      some (emptyJunk offset (.malformed ⟨offset, offset⟩))
  stretch.map fun stretch => (stretch.value, stretch.errors)

/-! ### Templates -/

/-- A placeholder or a run of text, unless a closing brace or the end follows. -/
def readElement? : SlicedStep Element := fun pos => do
  let rest ← sliceFrom? source pos
  let closes ← isAt source '}' pos
  if rest = [] ∨ closes then return none
  else if ← isAt source '{' pos then
    return some ((← readPlaceholder source pos).map .placeholder)
  else
    let text ← many source (escaped? source ['{', '}']) pos
    return some ⟨.text ⟨⟨pos, text.next⟩, String.ofList text.value⟩, text.errors, text.next⟩

/-- The pattern whose opening brace, of one byte, follows. -/
def readPattern (pos : Nat) : Option (Stretch Pattern) := do
  let elements ← many source (readElement? source) (pos + 1)
  let closed ← expect source '}' elements.next
  return ⟨⟨⟨pos, closed.next⟩, elements.value⟩, elements.errors ++ closed.errors, closed.next⟩

/-- The target of a declaration: a variable that has to be here. -/
def readTarget (pos : Nat) : Option (Stretch Token) := do
  if ← isAt source '$' pos then readVariable source pos
  else return ⟨⟨⟨pos, pos⟩, ""⟩, [.emptyToken pos], pos⟩

/-- The value of a declaration: a placeholder that has to be here. -/
def readDeclared (pos : Nat) : Option (Stretch Placeholder) := do
  if ← isAt source '{' pos then readPlaceholder source pos
  else return emptyJunk pos (.missingChar pos '{')

/-- A declaration, if its keyword follows. -/
def readDeclaration? : SlicedStep Declaration := fun pos => do
  let start ← skipBlank source pos
  match ← keyword? source ['l', 'e', 't'] start with
  | none => return none
  | some after =>
    let target ← readTarget source (← skipBlank source after)
    let equals ← expect source '=' (← skipBlank source target.next)
    let value ← readDeclared source (← skipBlank source equals.next)
    return some ⟨⟨⟨start, value.value.span.stop⟩, target.value, value.value⟩,
      target.errors ++ equals.errors ++ value.errors, value.next⟩

/-- A selector, if an opening brace follows. -/
def readSelector? : SlicedStep Placeholder := fun pos => do
  let start ← skipBlank source pos
  if ← isAt source '{' start then return some (← readPlaceholder source start) else return none

/-- A variant key after blanks, if one follows. -/
def readKey? : SlicedStep Key := fun pos => do
  let start ← skipBlank source pos
  if !(← follows source isBlank pos) then return none
  else if ← isAt source '*' start then return some ⟨.wildcard start, [], start + 1⟩
  else if ← isAt source '|' start then return some ((← readQuoted source start).map .quoted)
  else if ← follows source isNameChar start then
    return some ((← readWordToken source start).map .word)
  else return none

/-- The pattern of a variant, which has to be here. -/
def readVariantPattern (pos : Nat) : Option (Stretch Pattern) := do
  if ← isAt source '{' pos then readPattern source pos
  else return ⟨⟨⟨pos, pos⟩, []⟩, [.missingChar pos '{'], pos⟩

/-- A variant, if its keyword follows. -/
def readVariant? (selectorCount : Nat) : SlicedStep Variant := fun pos => do
  let start ← skipBlank source pos
  match ← keyword? source ['w', 'h', 'e', 'n'] start with
  | none => return none
  | some after =>
    let keys ← many source (readKey? source) after
    let value ← readVariantPattern source (← skipBlank source keys.next)
    let noKeys : List Error := if keys.value = [] then [.emptyToken keys.next] else []
    let span : Span := ⟨start, value.value.span.stop⟩
    let wrongCount : List Error :=
      if keys.value ≠ [] ∧ keys.value.length ≠ selectorCount then [.malformed span] else []
    return some ⟨⟨span, keys.value, value.value⟩, keys.errors ++ noKeys ++ value.errors ++ wrongCount,
      value.next⟩

/-- The selection that starts at `pos`, read from behind its keyword. -/
def readSelect (pos after : Nat) : Option (Stretch Select) := do
  let selectors ← many source (readSelector? source) after
  let missing ← skipBlank source selectors.next
  let noSelectors : List Error := if selectors.value = [] then [.missingChar missing '{'] else []
  let variants ← many source (readVariant? source selectors.value.length) selectors.next
  let stop ← skipBlank source variants.next
  let noVariants : List Error := if variants.value = [] then [.malformed ⟨stop, stop⟩] else []
  return ⟨⟨⟨pos, variants.next⟩, selectors.value, variants.value⟩,
    selectors.errors ++ noSelectors ++ variants.errors ++ noVariants, variants.next⟩

/-- The body of a template, or all that is left of the source as junk. -/
def readBody (pos : Nat) : Option (Stretch Body) := do
  match ← keyword? source ['m', 'a', 't', 'c', 'h'] pos with
  | some after => return (← readSelect source pos after).map .select
  | none =>
    if ← isAt source '{' pos then return (← readPattern source pos).map .pattern
    else
      let span : Span := ⟨pos, byteLength source⟩
      return ⟨.junk ⟨span, String.ofList (← sliceFrom? source pos)⟩, [.malformed span], span.stop⟩

/-- Reads a template. -/
def parseTemplate : Option (Template × List Error) := do
  let declarations ← many source (readDeclaration? source) 0
  let body ← readBody source (← skipBlank source declarations.next)
  let after ← skipBlank source body.next
  let trailing : List Error :=
    if after < byteLength source then [.extraContent ⟨after, byteLength source⟩] else []
  return (⟨declarations.value, body.value⟩, declarations.errors ++ body.errors ++ trailing)

end Slicing

end Phrasebook.Syntax
