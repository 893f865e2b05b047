import Phrasebook.Syntax.Reading
import Phrasebook.Syntax.Tree
import Phrasebook.Text.Alphabetic

namespace Phrasebook.Syntax

open Text (Cursor)
open Text.Cursor (Reaches Advances)

/-- Space, tab, carriage return or line feed. -/
def isBlank (c : Char) : Bool := c == ' ' || c == '\t' || c == '\r' || c == '\n'

/-- A letter or an underscore. -/
def isNameStart (c : Char) : Bool := Text.isAlphabetic c || c == '_'

/-- A character that names and words are made of. -/
def isNameChar (c : Char) : Bool :=
  isNameStart c || c.isDigit || c == '-' || c == '.' || c.toNat == 0xB7 ||
    (0x300 ≤ c.toNat && c.toNat ≤ 0x36F) || (0x203F ≤ c.toNat && c.toNat ≤ 0x2040)

theorem isNameChar_of_isNameStart {c : Char} (starts : isNameStart c = true) :
    isNameChar c = true := by
  simp [isNameChar, starts]

/-- The place after the blanks that follow. -/
def skipBlank (here : Cursor) : Cursor := here.skipWhile isBlank

/-- The place after a keyword, which no name character may follow. -/
def keyword? (word : List Char) (here : Cursor) : Option Cursor :=
  (here.after? word).filter fun next => !next.follows isNameChar

/-- The run of name characters that follows, which may be empty. -/
def readWord (here : Cursor) : Reading String :=
  ⟨String.ofList (here.rest.takeWhile isNameChar), [], here.skipWhile isNameChar⟩

/-- A name that has to be here. -/
def readName (here : Cursor) : Reading String :=
  if here.follows isNameStart then readWord here else ⟨"", [.emptyToken here.offset], here⟩

/-- The variable whose `$` follows. -/
def readVariable (here : Cursor) : Reading Token :=
  let name := readName here.advance
  ⟨⟨⟨here.offset, name.next.offset⟩, name.value⟩, name.errors, name.next⟩

/-- The text of a quotation up to its closing bar. A bar or a backslash in it is written after a
backslash; any other backslash is kept, and is an error. The end of the source closes it too, with
an error. -/
def quotedText (offset : Nat) : List Char → Reading (List Char)
  | [] => ⟨[], [.missingChar offset '|'], ⟨offset, []⟩⟩
  | '|' :: rest => ⟨[], [], ⟨offset + 1, rest⟩⟩
  | '\\' :: '|' :: rest => (quotedText (offset + 2) rest).map ('|' :: ·)
  | '\\' :: '\\' :: rest => (quotedText (offset + 2) rest).map ('\\' :: ·)
  | '\\' :: rest =>
    let more := quotedText (offset + 1) rest
    ⟨'\\' :: more.value, .malformed ⟨offset, offset + 1⟩ :: more.errors, more.next⟩
  | c :: rest => (quotedText (offset + c.utf8Size) rest).map (c :: ·)

/-- The quotation whose opening bar follows. -/
def readQuoted (here : Cursor) : Reading Token :=
  let body := quotedText (here.offset + 1) here.advance.rest
  ⟨⟨⟨here.offset, body.next.offset⟩, String.ofList body.value⟩, body.errors, body.next⟩

theorem reaches_skipBlank (here : Cursor) : Reaches here (skipBlank here) :=
  Text.Cursor.reaches_skipWhile isBlank here

theorem advances_keyword? {word : List Char} {here later : Cursor} (some_word : word ≠ [])
    (found : keyword? word here = some later) : Advances here later := by
  obtain ⟨present, -⟩ := Option.filter_eq_some_iff.mp found
  exact Text.Cursor.advances_after? some_word present

theorem reaches_readWord (here : Cursor) : Reaches here (readWord here).next :=
  Text.Cursor.reaches_skipWhile isNameChar here

theorem advances_readWord {here : Cursor} (present : here.follows isNameChar = true) :
    Advances here (readWord here).next :=
  Text.Cursor.advances_skipWhile present

theorem follows_isNameChar {here : Cursor} (present : here.follows isNameStart = true) :
    here.follows isNameChar = true := by
  unfold Text.Cursor.follows at present ⊢
  cases first : here.rest.head? with
  | none => simp [first] at present
  | some c => simpa [first] using isNameChar_of_isNameStart (by simpa [first] using present)

theorem reaches_readName (here : Cursor) : Reaches here (readName here).next := by
  unfold readName
  split
  · exact reaches_readWord here
  · exact Reaches.refl here

theorem reaches_readVariable (here : Cursor) : Reaches here (readVariable here).next :=
  (Text.Cursor.reaches_advance here).trans (reaches_readName here.advance)

/-- One more character passed before a place. -/
theorem reaches_cons {c : Char} {offset : Nat} {rest : List Char} {later : Cursor}
    (reach : Reaches ⟨offset + c.utf8Size, rest⟩ later) : Reaches ⟨offset, c :: rest⟩ later :=
  (Text.Cursor.reaches_advance ⟨offset, c :: rest⟩).trans reach

theorem reaches_quotedText (offset : Nat) (text : List Char) :
    Reaches ⟨offset, text⟩ (quotedText offset text).next := by
  fun_induction quotedText offset text with
  | case1 offset => exact Reaches.refl _
  | case2 offset rest => exact reaches_cons (Reaches.refl _)
  | case3 offset rest ih => exact reaches_cons (reaches_cons ih)
  | case4 offset rest ih => exact reaches_cons (reaches_cons ih)
  | case5 offset rest _ _ more ih => exact reaches_cons ih
  | case6 offset c rest _ _ _ _ ih => exact reaches_cons ih

theorem advances_readQuoted {here : Cursor} (atBar : here.isAt '|' = true) :
    Advances here (readQuoted here).next := by
  obtain ⟨offset, rest⟩ := here
  cases rest with
  | nil => simp [Text.Cursor.isAt, Text.Cursor.follows] at atBar
  | cons c rest =>
    obtain rfl : c = '|' := by simpa [Text.Cursor.isAt, Text.Cursor.follows] using atBar
    exact (Text.Cursor.advances_advance (by simp)).trans_reaches (reaches_quotedText (offset + 1) rest)

end Phrasebook.Syntax
