/-!
Places in a text. Offsets count the bytes of the UTF-8 form; the characters that follow a place are
kept beside its offset, so that reading on needs no index. `Reaches` is the one relation between the
places of a text: everything that reads a text moves along it.
-/

namespace Phrasebook.Text

/-- The size of a text in UTF-8. -/
def byteLength : List Char → Nat
  | [] => 0
  | c :: rest => c.utf8Size + byteLength rest

@[simp] theorem byteLength_nil : byteLength [] = 0 := rfl

@[simp] theorem byteLength_cons (c : Char) (text : List Char) :
    byteLength (c :: text) = c.utf8Size + byteLength text := rfl

@[simp] theorem byteLength_append (first second : List Char) :
    byteLength (first ++ second) = byteLength first + byteLength second := by
  induction first with
  | nil => simp
  | cons c first ih => simp [ih, Nat.add_assoc]

/-- Cuts a text after `offset` bytes, unless that is inside a character or past the end. -/
def splitAtOffset? : List Char → Nat → Option (List Char × List Char)
  | text, 0 => some ([], text)
  | [], _ + 1 => none
  | c :: text, offset + 1 =>
    if c.utf8Size ≤ offset + 1 then
      (splitAtOffset? text (offset + 1 - c.utf8Size)).map fun cut => (c :: cut.1, cut.2)
    else none

/-- A text is cut after a prefix by the size of that prefix. -/
theorem splitAtOffset?_append (first second : List Char) :
    splitAtOffset? (first ++ second) (byteLength first) = some (first, second) := by
  induction first with
  | nil => cases second <;> rfl
  | cons c first ih =>
    obtain ⟨before, size⟩ : ∃ before, byteLength (c :: first) = before + 1 :=
      Nat.exists_eq_add_one.mpr (by simpa using Nat.add_pos_left c.utf8Size_pos _)
    have fits : c.utf8Size ≤ before + 1 := by
      rw [← size, byteLength_cons]
      exact Nat.le_add_right ..
    have left : before + 1 - c.utf8Size = byteLength first := by
      rw [← size, byteLength_cons, Nat.add_sub_cancel_left]
    rw [size, List.cons_append, splitAtOffset?, if_pos fits, left, ih]
    rfl

/-- Where a text is cut, the parts make up the text, and the first has the size asked for. -/
theorem eq_append_of_splitAtOffset? {text first second : List Char} {offset : Nat}
    (cut : splitAtOffset? text offset = some (first, second)) :
    text = first ++ second ∧ byteLength first = offset := by
  fun_induction splitAtOffset? text offset generalizing first with
  | case1 text =>
    obtain ⟨rfl, rfl⟩ := Prod.mk.inj (Option.some.inj cut)
    exact ⟨rfl, rfl⟩
  | case2 => cases cut
  | case3 c text offset fits ih =>
    obtain ⟨⟨front, back⟩, inner, same⟩ := Option.map_eq_some_iff.mp cut
    obtain ⟨rfl, rfl⟩ := Prod.mk.inj same
    obtain ⟨rfl, size⟩ := ih inner
    exact ⟨rfl, by rw [byteLength_cons, size]; omega⟩
  | case4 => cases cut

/-- The text between two offsets, if both lie between characters and in order. -/
def slice? (text : List Char) (start stop : Nat) : Option (List Char) := do
  let upToStop ← splitAtOffset? text stop
  let cut ← splitAtOffset? upToStop.1 start
  pure cut.2

/-- The text from an offset on, if that lies between characters. -/
def sliceFrom? (text : List Char) (start : Nat) : Option (List Char) :=
  (splitAtOffset? text start).map Prod.snd

/-- A place in a text: how many bytes lie before it, and what follows. -/
structure Cursor where
  offset : Nat
  rest : List Char
  deriving DecidableEq, Repr

namespace Cursor

/-- The place before the first character. -/
def start (text : List Char) : Cursor := ⟨0, text⟩

/-- The place at an offset, if it lies between characters. -/
def at? (text : List Char) (offset : Nat) : Option Cursor :=
  (splitAtOffset? text offset).map fun cut => ⟨offset, cut.2⟩

/-- The place after the next character; the end stays. -/
def advance : Cursor → Cursor
  | ⟨offset, []⟩ => ⟨offset, []⟩
  | ⟨offset, c :: rest⟩ => ⟨offset + c.utf8Size, rest⟩

/-- The place after the characters that satisfy a test. -/
def skipWhile (test : Char → Bool) (here : Cursor) : Cursor :=
  ⟨here.offset + byteLength (here.rest.takeWhile test), here.rest.dropWhile test⟩

/-- Whether a character follows that satisfies a test. -/
def follows (test : Char → Bool) (here : Cursor) : Bool := here.rest.head?.any test

/-- Whether a given character follows. -/
def isAt (c : Char) (here : Cursor) : Bool := here.follows (· == c)

/-- The place after a given text, if that text follows. -/
def after? (text : List Char) (here : Cursor) : Option Cursor :=
  if text.isPrefixOf here.rest then
    some ⟨here.offset + byteLength text, here.rest.drop text.length⟩
  else none

/-- The offset of the end of the text. -/
def endOffset (here : Cursor) : Nat := here.offset + byteLength here.rest

/-- The characters from one place to a later one. -/
def upTo (here later : Cursor) : List Char :=
  here.rest.take (here.rest.length - later.rest.length)

/-- The later place follows the earlier one in the same text. -/
def Reaches (here later : Cursor) : Prop :=
  ∃ passed, here.rest = passed ++ later.rest ∧ later.offset = here.offset + byteLength passed

namespace Reaches

theorem refl (here : Cursor) : Reaches here here := ⟨[], by simp, by simp⟩

theorem trans {here middle later : Cursor} (first : Reaches here middle)
    (second : Reaches middle later) : Reaches here later := by
  obtain ⟨passed, text, offset⟩ := first
  obtain ⟨passed', text', offset'⟩ := second
  exact ⟨passed ++ passed', by simp [text, text'], by simp [offset, offset']; omega⟩

theorem length_le {here later : Cursor} (reach : Reaches here later) :
    later.rest.length ≤ here.rest.length := by
  obtain ⟨passed, text, _⟩ := reach
  simp [text]

theorem offset_le {here later : Cursor} (reach : Reaches here later) :
    here.offset ≤ later.offset := by
  obtain ⟨_, _, offset⟩ := reach
  omega

/-- Places of one text have the same end. -/
theorem endOffset_eq {here later : Cursor} (reach : Reaches here later) :
    later.endOffset = here.endOffset := by
  obtain ⟨passed, text, offset⟩ := reach
  simp [endOffset, text, offset]; omega

end Reaches

/-- The later place follows the earlier one, and at least one character lies between. -/
def Advances (here later : Cursor) : Prop :=
  Reaches here later ∧ later.rest.length < here.rest.length

theorem Advances.trans_reaches {here middle later : Cursor} (first : Advances here middle)
    (second : Reaches middle later) : Advances here later :=
  ⟨first.1.trans second, Nat.lt_of_le_of_lt second.length_le first.2⟩

theorem Advances.offset_lt {here later : Cursor} (advance : Advances here later) :
    here.offset < later.offset := by
  obtain ⟨⟨passed, text, offset⟩, shorter⟩ := advance
  cases passed with
  | nil => exact absurd shorter (by simp [text])
  | cons c passed =>
    have size := c.utf8Size_pos
    rw [offset, byteLength_cons]
    omega

theorem Reaches.trans_advances {here middle later : Cursor} (first : Reaches here middle)
    (second : Advances middle later) : Advances here later :=
  ⟨first.trans second.1, Nat.lt_of_lt_of_le second.2 first.length_le⟩

theorem reaches_advance (here : Cursor) : Reaches here here.advance := by
  obtain ⟨offset, rest⟩ := here
  cases rest with
  | nil => exact Reaches.refl _
  | cons c rest => exact ⟨[c], by simp [advance], by simp [advance]⟩

theorem reaches_skipWhile (test : Char → Bool) (here : Cursor) :
    Reaches here (here.skipWhile test) :=
  ⟨here.rest.takeWhile test, by simp [skipWhile], rfl⟩

theorem rest_ne_nil_of_follows {test : Char → Bool} {here : Cursor}
    (next : here.follows test = true) : here.rest ≠ [] := by
  intro empty
  simp [follows, empty] at next

theorem advances_advance {here : Cursor} (more : here.rest ≠ []) :
    Advances here here.advance := by
  obtain ⟨offset, rest⟩ := here
  cases rest with
  | nil => exact absurd rfl more
  | cons c rest => exact ⟨reaches_advance _, by simp [advance]⟩

theorem advances_skipWhile {test : Char → Bool} {here : Cursor}
    (next : here.follows test = true) : Advances here (here.skipWhile test) := by
  refine ⟨reaches_skipWhile test here, ?_⟩
  obtain ⟨offset, rest⟩ := here
  cases rest with
  | nil => simp [follows] at next
  | cons c rest =>
    have passes : test c = true := by simpa [follows] using next
    have shorter := (List.dropWhile_suffix (l := rest) test).length_le
    simp [skipWhile, passes]
    omega

theorem reaches_after? {text : List Char} {here later : Cursor}
    (found : here.after? text = some later) : Reaches here later := by
  unfold after? at found
  split at found
  · next isStart =>
    obtain ⟨rest, whole⟩ := List.isPrefixOf_iff_prefix.mp isStart
    obtain rfl := Option.some.inj found
    exact ⟨text, by simp [← whole], rfl⟩
  · cases found

theorem advances_after? {text : List Char} {here later : Cursor} (some_text : text ≠ [])
    (found : here.after? text = some later) : Advances here later := by
  refine ⟨reaches_after? found, ?_⟩
  unfold after? at found
  split at found
  · next isStart =>
    obtain ⟨rest, whole⟩ := List.isPrefixOf_iff_prefix.mp isStart
    obtain rfl := Option.some.inj found
    have long := List.length_pos_iff.mpr some_text
    simp [← whole]; omega
  · cases found

/-- What was passed on the way is the text between the two places. -/
theorem upTo_eq_of_rest_eq {here later : Cursor} {passed : List Char}
    (text : here.rest = passed ++ later.rest) : here.upTo later = passed := by
  simp [upTo, text]

end Cursor

end Phrasebook.Text
