import Phrasebook.Syntax.Placeholder

/-!
Whole templates: declarations, then a pattern in braces or a selection with variants.
-/

namespace Phrasebook.Syntax

open Text (Cursor)
open Text.Cursor (Reaches Advances)

/-- The run of pattern text up to a brace or the end. A brace or a backslash in it is written after a
backslash; any other backslash is kept, and is an error. -/
def patternText (offset : Nat) : List Char → Reading (List Char)
  | [] => ⟨[], [], ⟨offset, []⟩⟩
  | '{' :: rest => ⟨[], [], ⟨offset, '{' :: rest⟩⟩
  | '}' :: rest => ⟨[], [], ⟨offset, '}' :: rest⟩⟩
  | '\\' :: '\\' :: rest => (patternText (offset + 2) rest).map ('\\' :: ·)
  | '\\' :: '{' :: rest => (patternText (offset + 2) rest).map ('{' :: ·)
  | '\\' :: '}' :: rest => (patternText (offset + 2) rest).map ('}' :: ·)
  | '\\' :: rest =>
    let more := patternText (offset + 1) rest
    ⟨'\\' :: more.value, .malformed ⟨offset, offset + 1⟩ :: more.errors, more.next⟩
  | c :: rest => (patternText (offset + c.utf8Size) rest).map (c :: ·)

/-- A placeholder or a run of text, unless a closing brace or the end follows. -/
def readElement? : Step Element := fun here =>
  if here.rest = [] ∨ here.isAt '}' then none
  else if here.isAt '{' then some ((readPlaceholder here).map .placeholder)
  else
    let text := patternText here.offset here.rest
    some ⟨.text ⟨⟨here.offset, text.next.offset⟩, String.ofList text.value⟩, text.errors, text.next⟩

theorem reaches_patternText (offset : Nat) (text : List Char) :
    Reaches ⟨offset, text⟩ (patternText offset text).next := by
  fun_induction patternText offset text with
  | case1 offset => exact Reaches.refl _
  | case2 offset rest => exact Reaches.refl _
  | case3 offset rest => exact Reaches.refl _
  | case4 offset rest ih => exact reaches_cons (reaches_cons ih)
  | case5 offset rest ih => exact reaches_cons (reaches_cons ih)
  | case6 offset rest ih => exact reaches_cons (reaches_cons ih)
  | case7 offset rest _ _ _ more ih => exact reaches_cons ih
  | case8 offset c rest _ _ _ _ _ _ ih => exact reaches_cons ih

/-- A run of text that starts with no brace has a character at least. -/
theorem advances_patternText {offset : Nat} {c : Char} {rest : List Char} (opens : c ≠ '{')
    (close : c ≠ '}') : Advances ⟨offset, c :: rest⟩ (patternText offset (c :: rest)).next := by
  refine ⟨reaches_patternText offset (c :: rest), ?_⟩
  have step (later : Nat) (text : List Char) :=
    (reaches_patternText later text).length_le
  unfold patternText
  split
  · simp_all
  · simp_all
  · simp_all
  all_goals
    rename_i same
    obtain ⟨rfl, rfl⟩ := List.cons.inj same
    simp only [Reading.map_next, List.length_cons]
    refine Nat.lt_of_le_of_lt (step _ _) ?_
    dsimp only
    omega

theorem readElement?_progresses : readElement?.Progresses := by
  intro here reading found
  simp only [readElement?] at found
  split at found
  · cases found
  · next more =>
    obtain ⟨some_rest, close⟩ := not_or.mp more
    split at found
    · obtain rfl := Option.some.inj found
      exact advances_readPlaceholder some_rest
    · next opens =>
      obtain rfl := Option.some.inj found
      obtain ⟨offset, rest⟩ := here
      cases rest with
      | nil => exact absurd rfl some_rest
      | cons c rest =>
        exact advances_patternText
          (by simpa [Text.Cursor.isAt, Text.Cursor.follows] using opens)
          (by simpa [Text.Cursor.isAt, Text.Cursor.follows] using close)

/-- The pattern whose opening brace follows. -/
def readPattern (here : Cursor) : Reading Pattern :=
  let elements := many readElement? readElement?_progresses here.advance
  let closed := expect '}' elements.next
  ⟨⟨⟨here.offset, closed.next.offset⟩, elements.value⟩, elements.errors ++ closed.errors,
    closed.next⟩

theorem reaches_readPattern (here : Cursor) : Reaches here (readPattern here).next :=
  (Text.Cursor.reaches_advance here).trans <|
    (reaches_many readElement?_progresses _).trans (reaches_expect '}' _)

/-- The target of a declaration: a variable that has to be here. -/
def readTarget (here : Cursor) : Reading Token :=
  if here.isAt '$' then readVariable here
  else ⟨⟨⟨here.offset, here.offset⟩, ""⟩, [.emptyToken here.offset], here⟩

/-- The value of a declaration: a placeholder that has to be here. -/
def readDeclared (here : Cursor) : Reading Placeholder :=
  if here.isAt '{' then readPlaceholder here
  else emptyJunk here.offset (.missingChar here.offset '{') here

/-- A declaration, if its keyword follows. -/
def readDeclaration? : Step Declaration := fun here =>
  let start := skipBlank here
  (keyword? ['l', 'e', 't'] start).map fun after =>
    let target := readTarget (skipBlank after)
    let equals := expect '=' (skipBlank target.next)
    let value := readDeclared (skipBlank equals.next)
    ⟨⟨⟨start.offset, value.value.span.stop⟩, target.value, value.value⟩,
      target.errors ++ equals.errors ++ value.errors, value.next⟩

theorem reaches_readTarget (here : Cursor) : Reaches here (readTarget here).next := by
  unfold readTarget
  split
  · exact reaches_readVariable here
  · exact Reaches.refl here

theorem reaches_readDeclared (here : Cursor) : Reaches here (readDeclared here).next := by
  unfold readDeclared
  split
  · next opens =>
    exact (advances_readPlaceholder (Text.Cursor.rest_ne_nil_of_follows opens)).1
  · exact Reaches.refl here

theorem readDeclaration?_progresses : readDeclaration?.Progresses := by
  intro here reading found
  obtain ⟨after, keyword, rfl⟩ := Option.map_eq_some_iff.mp found
  exact (reaches_skipBlank here).trans_advances <|
    (advances_keyword? (by simp) keyword).trans_reaches <|
      (reaches_skipBlank after).trans <| (reaches_readTarget _).trans <|
        (reaches_skipBlank _).trans <| (reaches_expect '=' _).trans <|
          (reaches_skipBlank _).trans (reaches_readDeclared _)

/-- A selector, if an opening brace follows. -/
def readSelector? : Step Placeholder := fun here =>
  let start := skipBlank here
  if start.isAt '{' then some (readPlaceholder start) else none

theorem readSelector?_progresses : readSelector?.Progresses := by
  intro here reading found
  simp only [readSelector?] at found
  split at found
  · next opens =>
    obtain rfl := Option.some.inj found
    exact (reaches_skipBlank here).trans_advances
      (advances_readPlaceholder (Text.Cursor.rest_ne_nil_of_follows opens))
  · cases found

/-- A variant key after blanks, if one follows. -/
def readKey? : Step Key := fun here =>
  let start := skipBlank here
  if !here.follows isBlank then none
  else if start.isAt '*' then some ⟨.wildcard start.offset, [], start.advance⟩
  else if start.isAt '|' then some ((readQuoted start).map .quoted)
  else if start.follows isNameChar then some ((readWordToken start).map .word)
  else none

theorem readKey?_progresses : readKey?.Progresses := by
  intro here reading found
  simp only [readKey?] at found
  split at found
  · cases found
  · refine (reaches_skipBlank here).trans_advances ?_
    split at found
    · next star =>
      obtain rfl := Option.some.inj found
      exact Text.Cursor.advances_advance (Text.Cursor.rest_ne_nil_of_follows star)
    · split at found
      · next atBar =>
        obtain rfl := Option.some.inj found
        exact advances_readQuoted atBar
      · split at found
        · next word =>
          obtain rfl := Option.some.inj found
          exact advances_readWord word
        · cases found

/-- The pattern of a variant, which has to be here. -/
def readVariantPattern (here : Cursor) : Reading Pattern :=
  if here.isAt '{' then readPattern here
  else ⟨⟨⟨here.offset, here.offset⟩, []⟩, [.missingChar here.offset '{'], here⟩

theorem reaches_readVariantPattern (here : Cursor) :
    Reaches here (readVariantPattern here).next := by
  unfold readVariantPattern
  split
  · exact reaches_readPattern here
  · exact Reaches.refl here

/-- A variant, if its keyword follows. A number of keys other than the number of selectors is an
error of the whole variant. -/
def readVariant? (selectorCount : Nat) : Step Variant := fun here =>
  let start := skipBlank here
  (keyword? ['w', 'h', 'e', 'n'] start).map fun after =>
    let keys := many readKey? readKey?_progresses after
    let value := readVariantPattern (skipBlank keys.next)
    let noKeys : List Error := if keys.value = [] then [.emptyToken keys.next.offset] else []
    let span : Span := ⟨start.offset, value.value.span.stop⟩
    let wrongCount : List Error :=
      if keys.value ≠ [] ∧ keys.value.length ≠ selectorCount then [.malformed span] else []
    ⟨⟨span, keys.value, value.value⟩, keys.errors ++ noKeys ++ value.errors ++ wrongCount,
      value.next⟩

theorem readVariant?_progresses (selectorCount : Nat) :
    (readVariant? selectorCount).Progresses := by
  intro here reading found
  obtain ⟨after, keyword, rfl⟩ := Option.map_eq_some_iff.mp found
  exact (reaches_skipBlank here).trans_advances <|
    (advances_keyword? (by simp) keyword).trans_reaches <|
      (reaches_many readKey?_progresses after).trans <|
        (reaches_skipBlank _).trans (reaches_readVariantPattern _)

/-- The selection that starts at `here`, read from behind its keyword. -/
def readSelect (here after : Cursor) : Reading Select :=
  let selectors := many readSelector? readSelector?_progresses after
  let noSelectors : List Error :=
    if selectors.value = [] then [.missingChar (skipBlank selectors.next).offset '{'] else []
  let variants :=
    many (readVariant? selectors.value.length) (readVariant?_progresses _) selectors.next
  let stop := (skipBlank variants.next).offset
  let noVariants : List Error := if variants.value = [] then [.malformed ⟨stop, stop⟩] else []
  ⟨⟨⟨here.offset, variants.next.offset⟩, selectors.value, variants.value⟩,
    selectors.errors ++ noSelectors ++ variants.errors ++ noVariants, variants.next⟩

/-- The body of a template. Where neither a selection nor a pattern starts, all that is left is
junk. -/
def readBody (here : Cursor) : Reading Body :=
  match keyword? ['m', 'a', 't', 'c', 'h'] here with
  | some after => (readSelect here after).map .select
  | none =>
    if here.isAt '{' then (readPattern here).map .pattern
    else
      let span : Span := ⟨here.offset, here.endOffset⟩
      ⟨.junk ⟨span, String.ofList here.rest⟩, [.malformed span], ⟨here.endOffset, []⟩⟩

/-- The end of the text lies behind every place. -/
theorem reaches_end (here : Cursor) : Reaches here ⟨here.endOffset, []⟩ :=
  ⟨here.rest, by simp, rfl⟩

theorem reaches_readBody (here : Cursor) : Reaches here (readBody here).next := by
  unfold readBody
  split
  · next after keyword =>
    exact (advances_keyword? (by simp) keyword).1.trans <|
      (reaches_many readSelector?_progresses after).trans <|
        reaches_many (readVariant?_progresses _) _
  · split
    · exact reaches_readPattern here
    · exact reaches_end here

/-- Reads a template. Text after its body is extra content. -/
def parseTemplate (source : List Char) : Template × List Error :=
  let declarations :=
    many readDeclaration? readDeclaration?_progresses (Cursor.start source)
  let body := readBody (skipBlank declarations.next)
  let after := skipBlank body.next
  let trailing : List Error :=
    if after.rest = [] then [] else [.extraContent ⟨after.offset, after.endOffset⟩]
  (⟨declarations.value, body.value⟩, declarations.errors ++ body.errors ++ trailing)

end Phrasebook.Syntax
