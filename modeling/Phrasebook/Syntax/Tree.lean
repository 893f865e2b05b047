import Phrasebook.Syntax.Error

/-!
The syntax tree of a template. Every node has the span of source text that it was read from.
-/

namespace Phrasebook.Syntax

/-- A stretch of source and the text it stands for: a name without its sigil, or a quoted text
without its bars and escapes. -/
structure Token where
  span : Span
  text : String
  deriving DecidableEq, Repr

/-- What a call is about: quoted text or a variable. -/
inductive Operand where
  | quoted (token : Token)
  | variable (token : Token)
  deriving DecidableEq, Repr

def Operand.span : Operand → Span
  | .quoted token => token.span
  | .variable token => token.span

/-- The value of an option; a word needs no quotes. -/
inductive OptionValue where
  | quoted (token : Token)
  | word (token : Token)
  | variable (token : Token)
  deriving DecidableEq, Repr

def OptionValue.span : OptionValue → Span
  | .quoted token => token.span
  | .word token => token.span
  | .variable token => token.span

/-- An option `name=value`. -/
structure OptionEntry where
  span : Span
  name : String
  value : OptionValue
  deriving DecidableEq, Repr

/-- A function call with or without an operand: `$x :name option=value`. -/
structure Call where
  span : Span
  operand : Option Operand
  name : String
  options : List OptionEntry
  deriving DecidableEq, Repr

/-- A markup marker: `+name` or `-name`. -/
structure Marker where
  span : Span
  name : String
  options : List OptionEntry
  deriving DecidableEq, Repr

/-- The inside of a placeholder. -/
inductive PlaceholderBody where
  | quoted (token : Token)
  | variable (token : Token)
  | call (node : Call)
  | opening (marker : Marker)
  | closing (marker : Marker)
  /-- Content that could not be read; its text is the source of its span. -/
  | junk (token : Token)
  deriving DecidableEq, Repr

def PlaceholderBody.span : PlaceholderBody → Span
  | .quoted token => token.span
  | .variable token => token.span
  | .call node => node.span
  | .opening marker => marker.span
  | .closing marker => marker.span
  | .junk token => token.span

/-- A placeholder with its braces. -/
structure Placeholder where
  span : Span
  body : PlaceholderBody
  deriving DecidableEq, Repr

/-- A run of pattern text, without its escapes, or a placeholder. -/
inductive Element where
  | text (token : Token)
  | placeholder (node : Placeholder)
  deriving DecidableEq, Repr

/-- Text and placeholders between braces. -/
structure Pattern where
  span : Span
  elements : List Element
  deriving DecidableEq, Repr

/-- The key of a variant: quoted text, a word, or `*`. -/
inductive Key where
  | quoted (token : Token)
  | word (token : Token)
  | wildcard (start : Nat)
  deriving DecidableEq, Repr

/-- A variant: `when key… pattern`. -/
structure Variant where
  span : Span
  keys : List Key
  value : Pattern
  deriving DecidableEq, Repr

/-- A selection: `match placeholder… variant…`. -/
structure Select where
  span : Span
  selectors : List Placeholder
  variants : List Variant
  deriving DecidableEq, Repr

/-- A declaration: `let $target = placeholder`. -/
structure Declaration where
  span : Span
  target : Token
  value : Placeholder
  deriving DecidableEq, Repr

inductive Body where
  | pattern (node : Pattern)
  | select (node : Select)
  | junk (token : Token)
  deriving DecidableEq, Repr

/-- A whole template. -/
structure Template where
  declarations : List Declaration
  body : Body
  deriving DecidableEq, Repr

end Phrasebook.Syntax
