import Phrasebook.Text.Cursor

/-!
Syntax errors of templates. An error names byte offsets of the text it was found in; its line and
column are counted from them.
-/

namespace Phrasebook.Syntax

/-- A stretch of source text, from its first byte up to and without `stop`. -/
structure Span where
  start : Nat
  stop : Nat
  deriving DecidableEq, Repr

inductive Error where
  /-- A required character is absent. -/
  | missingChar (start : Nat) (char : Char)
  /-- Content that the grammar does not allow here. -/
  | extraContent (span : Span)
  /-- A name or value that should not be empty. -/
  | emptyToken (start : Nat)
  /-- Text that could not be read at all. -/
  | malformed (span : Span)
  deriving DecidableEq, Repr

namespace Error

def kind : Error → String
  | .missingChar .. => "missing-char"
  | .extraContent _ => "extra-content"
  | .emptyToken _ => "empty-token"
  | .malformed _ => "parse-error"

def start : Error → Nat
  | .missingChar start _ => start
  | .extraContent span => span.start
  | .emptyToken start => start
  | .malformed span => span.start

def stop? : Error → Option Nat
  | .missingChar .. => none
  | .extraContent span => some span.stop
  | .emptyToken _ => none
  | .malformed span => some span.stop

/-- The character that is missing, where one is. -/
def char? : Error → Option Char
  | .missingChar _ char => some char
  | _ => none

def message : Error → String
  | .missingChar start char => "missing '" ++ char.toString ++ "' at " ++ toString start
  | .extraContent span =>
    "extra content at " ++ toString span.start ++ ".." ++ toString span.stop
  | .emptyToken start => "empty token at " ++ toString start
  | .malformed span => "parse error at " ++ toString span.start ++ ".." ++ toString span.stop

end Error

/-- A line and a column in it, both counted from one, the column in characters. -/
structure Position where
  line : Nat
  column : Nat
  deriving DecidableEq, Repr

/-- The position after a text: its line feeds end lines. -/
def Position.after (text : List Char) : Position where
  line := text.count '\n' + 1
  column := (text.reverse.takeWhile (· != '\n')).length + 1

/-- The position of an offset. An offset past the end, or inside a character, has the position of
the end. -/
def Position.ofOffset (source : List Char) (offset : Nat) : Position :=
  .after (((Text.splitAtOffset? source offset).map Prod.fst).getD source)

def Error.position (error : Error) (source : List Char) : Position :=
  .ofOffset source error.start

end Phrasebook.Syntax
