import Phrasebook.Proofs.Grammar.Closing

/-!
What a placeholder depends on. Text in front of a placeholder moves its offsets and nothing else, and text
behind its closing brace does not count. Both are changes of the text around a stretch of source, a
`Move`; every reader commutes with a move that spares the character after what it read.
-/

namespace Phrasebook.Syntax

open Text (Cursor byteLength)
open Text.Cursor (Reaches Within)

section raising

/-- The span that lies as many bytes further on. -/
def Span.raise (distance : Nat) (span : Span) : Span := ⟨span.start + distance, span.stop + distance⟩

def Error.raise (distance : Nat) : Error → Error
  | .missingChar start char => .missingChar (start + distance) char
  | .extraContent span => .extraContent (span.raise distance)
  | .emptyToken start => .emptyToken (start + distance)
  | .malformed span => .malformed (span.raise distance)

def Token.raise (distance : Nat) (token : Token) : Token :=
  { token with span := token.span.raise distance }

def Operand.raise (distance : Nat) : Operand → Operand
  | .quoted token => .quoted (token.raise distance)
  | .variable token => .variable (token.raise distance)

def OptionValue.raise (distance : Nat) : OptionValue → OptionValue
  | .quoted token => .quoted (token.raise distance)
  | .word token => .word (token.raise distance)
  | .variable token => .variable (token.raise distance)

def OptionEntry.raise (distance : Nat) (entry : OptionEntry) : OptionEntry :=
  { entry with span := entry.span.raise distance, value := entry.value.raise distance }

def Call.raise (distance : Nat) (call : Call) : Call where
  span := call.span.raise distance
  operand := call.operand.map (·.raise distance)
  name := call.name
  options := call.options.map (·.raise distance)

def Marker.raise (distance : Nat) (marker : Marker) : Marker where
  span := marker.span.raise distance
  name := marker.name
  options := marker.options.map (·.raise distance)

def PlaceholderBody.raise (distance : Nat) : PlaceholderBody → PlaceholderBody
  | .quoted token => .quoted (token.raise distance)
  | .variable token => .variable (token.raise distance)
  | .call node => .call (node.raise distance)
  | .opening marker => .opening (marker.raise distance)
  | .closing marker => .closing (marker.raise distance)
  | .junk token => .junk (token.raise distance)

/-- The node with every offset in it raised. -/
def Placeholder.raise (distance : Nat) (node : Placeholder) : Placeholder :=
  ⟨node.span.raise distance, node.body.raise distance⟩

theorem Operand.raise_span (distance : Nat) (node : Operand) :
    (node.raise distance).span = node.span.raise distance := by
  cases node <;> rfl

end raising

/-- A change of the text around a stretch of source: as many bytes more in front of it, and another
tail for the last characters of the source. -/
structure Move where
  distance : Nat
  cut : Nat
  tail : List Char

namespace Move

/-- The text that follows a place, with the other tail. -/
def text (move : Move) (rest : List Char) : List Char :=
  rest.take (rest.length - move.cut) ++ move.tail

/-- Where a place comes to lie. -/
def place (move : Move) (here : Cursor) : Cursor :=
  ⟨here.offset + move.distance, move.text here.rest⟩

/-- The next character is kept, or the end of the source where nothing else is changed. -/
def Spares (move : Move) (here : Cursor) : Prop :=
  move.cut < here.rest.length ∨ move.cut = 0 ∧ move.tail = []

variable {move : Move} {here later : Cursor}

@[simp] theorem place_offset : (move.place here).offset = here.offset + move.distance := rfl

theorem Spares.cut_le (spared : move.Spares here) : move.cut ≤ here.rest.length := by
  rcases spared with kept | ⟨uncut, -⟩
  · exact Nat.le_of_lt kept
  · rw [uncut]
    exact Nat.zero_le _

theorem Spares.before (spared : move.Spares later) (reach : Reaches here later) :
    move.Spares here := by
  rcases spared with kept | same
  · exact .inl (Nat.lt_of_lt_of_le kept reach.length_le)
  · exact .inr same

private theorem Spares.ite {condition : Prop} [Decidable condition] (first : move.Spares here)
    (second : move.Spares later) : move.Spares (if condition then here else later) := by
  split
  · exact first
  · exact second

theorem ite_place {condition : Prop} [Decidable condition] :
    (if condition then move.place here else move.place later) =
      move.place (if condition then here else later) := (apply_ite move.place ..).symm

theorem text_append (passed : List Char) {rest : List Char} (kept : move.cut ≤ rest.length) :
    move.text (passed ++ rest) = passed ++ move.text rest := by
  have length : (passed ++ rest).length - move.cut = passed.length + (rest.length - move.cut) := by
    rw [List.length_append]
    omega
  rw [text, text, length, List.take_length_add_append, List.append_assoc]

theorem text_cons (c : Char) {rest : List Char} (kept : move.cut ≤ rest.length) :
    move.text (c :: rest) = c :: move.text rest := text_append [c] kept

theorem Spares.cut_tail {c : Char} {offset : Nat} {rest : List Char}
    (spared : move.Spares ⟨offset, c :: rest⟩) : move.cut ≤ rest.length := by
  rcases spared with kept | ⟨uncut, -⟩
  · exact Nat.le_of_lt_succ kept
  · rw [uncut]
    exact Nat.zero_le _

theorem text_nil {offset : Nat} (spared : move.Spares ⟨offset, []⟩) : move.text [] = [] := by
  rcases spared with kept | ⟨-, same⟩
  · exact absurd kept (Nat.not_lt_zero _)
  · simp [text, same]

theorem head?_text (spared : move.Spares here) : (move.text here.rest).head? = here.rest.head? := by
  obtain ⟨offset, rest⟩ := here
  cases rest with
  | nil => rw [text_nil spared]
  | cons c rest =>
    rw [text_cons c spared.cut_tail]
    rfl

private theorem text_ne_cons {c : Char} (spared : move.Spares here)
    (other : ∀ rest, here.rest = c :: rest → False) :
    ∀ rest, move.text here.rest = c :: rest → False := by
  intro rest same
  have head := head?_text spared
  rw [same] at head
  obtain ⟨behind, split⟩ := List.head?_eq_some_iff.mp head.symm
  exact other behind split

theorem follows_place (test : Char → Bool) (spared : move.Spares here) :
    (move.place here).follows test = here.follows test := by
  rw [Cursor.follows, place, head?_text spared, Cursor.follows]

theorem isAt_place (c : Char) (spared : move.Spares here) :
    (move.place here).isAt c = here.isAt c := follows_place _ spared

theorem advance_place (spared : move.Spares here) :
    (move.place here).advance = move.place here.advance := by
  obtain ⟨offset, rest⟩ := here
  cases rest with
  | nil =>
    rw [place, text_nil spared]
    simp only [Cursor.advance, place, text_nil spared]
  | cons c rest =>
    rw [place, text_cons c spared.cut_tail]
    simp only [Cursor.advance, place, Nat.add_right_comm]

theorem skipWhile_place {test : Char → Bool} (spared : move.Spares (here.skipWhile test)) :
    (move.place here).skipWhile test = move.place (here.skipWhile test) := by
  obtain ⟨run, all, split, stop⟩ := Grammar.skipWhile_split test here
  have offset := congrArg Cursor.offset (Grammar.skipWhile_append all stop here.offset)
  rw [← split] at offset
  have stop : Grammar.Stops test (move.text (here.skipWhile test).rest) := by
    rw [Grammar.Stops, head?_text spared]
    exact stop
  have rest : move.place here =
      ⟨here.offset + move.distance, run ++ move.text (here.skipWhile test).rest⟩ := by
    rw [← text_append run spared.cut_le, ← split, place]
  rw [rest, Grammar.skipWhile_append all stop, place, offset, Nat.add_right_comm]

theorem skipBlank_place (spared : move.Spares (skipBlank here)) :
    skipBlank (move.place here) = move.place (skipBlank here) := skipWhile_place spared

theorem upTo_place (spared : move.Spares later) (reach : Reaches here later) :
    (move.place here).upTo (move.place later) = here.upTo later := by
  obtain ⟨passed, split, -⟩ := reach
  have moved : (move.place here).rest = passed ++ (move.place later).rest := by
    rw [place, split, text_append passed spared.cut_le, place]
  rw [Text.Cursor.upTo_eq_of_rest_eq split, Text.Cursor.upTo_eq_of_rest_eq moved]

theorem takeWhile_place {test : Char → Bool} (spared : move.Spares (here.skipWhile test)) :
    (move.place here).rest.takeWhile test = here.rest.takeWhile test := by
  have passed (origin : Cursor) :
      origin.upTo (origin.skipWhile test) = origin.rest.takeWhile test :=
    Text.Cursor.upTo_eq_of_rest_eq List.takeWhile_append_dropWhile.symm
  rw [← passed, skipWhile_place spared,
    upTo_place spared (Text.Cursor.reaches_skipWhile test here), passed]

end Move

section tokens

variable {move : Move} {here : Cursor}

/-- What a reading becomes under a move. -/
def Reading.moved (move : Move) (raise : α → α) (reading : Reading α) : Reading α where
  value := raise reading.value
  errors := reading.errors.map (·.raise move.distance)
  next := move.place reading.next

@[simp] theorem Reading.moved_value (raise : α → α) (reading : Reading α) :
    (reading.moved move raise).value = raise reading.value := rfl

@[simp] theorem Reading.moved_errors (raise : α → α) (reading : Reading α) :
    (reading.moved move raise).errors = reading.errors.map (·.raise move.distance) := rfl

@[simp] theorem Reading.moved_next (raise : α → α) (reading : Reading α) :
    (reading.moved move raise).next = move.place reading.next := rfl

theorem Reading.map_moved {raise : α → α} {raise' : β → β} {f : α → β} (reading : Reading α)
    (same : ∀ value, f (raise value) = raise' (f value)) :
    (reading.moved move raise).map f = (reading.map f).moved move raise' := by
  simp only [map, moved, same]

/-- A reader that decides by the next character commutes with a move if the reader it chooses does,
under what is known of its reading. -/
theorem Reading.ite_moved {condition : Prop} [Decidable condition] {raise : α → α}
    {first second first' second' : Reading α} {P : Reading α → Prop}
    (known : P (if condition then first else second))
    (left : condition → P first → first' = first.moved move raise)
    (right : ¬ condition → P second → second' = second.moved move raise) :
    (if condition then first' else second') =
      (if condition then first else second).moved move raise := by
  by_cases holds : condition
  · rw [if_pos holds] at known ⊢
    rw [if_pos holds, left holds known]
  · rw [if_neg holds] at known ⊢
    rw [if_neg holds, right holds known]

theorem expect_place (c : Char) (spared : move.Spares here) :
    expect c (move.place here) = (expect c here).moved move id := by
  unfold expect
  rw [move.isAt_place c spared]
  split
  · rw [move.advance_place spared]
    rfl
  · rfl

theorem readWord_place (spared : move.Spares (readWord here).next) :
    readWord (move.place here) = (readWord here).moved move id := by
  rw [readWord, Move.takeWhile_place spared, Move.skipWhile_place spared]
  rfl

theorem readName_place (spared : move.Spares (readName here).next) :
    readName (move.place here) = (readName here).moved move id := by
  have head := spared.before (reaches_readName here)
  unfold readName at spared ⊢
  rw [move.follows_place _ head]
  apply Reading.ite_moved (P := fun reading => move.Spares reading.next) spared
  · intro _ spared
    exact readWord_place spared
  · intros
    rfl

theorem readVariable_place (spared : move.Spares (readVariable here).next) :
    readVariable (move.place here) = (readVariable here).moved move (.raise move.distance) := by
  rw [readVariable, move.advance_place (spared.before (reaches_readVariable here)),
    readName_place spared]
  rfl

/-- A backslash that escapes nothing still does so, since the character behind it is spared. -/
theorem quotedText_place {offset : Nat} {text : List Char}
    (spared : move.Spares (quotedText offset text).next) :
    quotedText (offset + move.distance) (move.text text) =
      (quotedText offset text).moved move id := by
  have kept {offset : Nat} {text : List Char} (spared : move.Spares (quotedText offset text).next) :
      move.cut ≤ text.length := (spared.before (reaches_quotedText offset text)).cut_le
  fun_induction quotedText offset text with
  | case1 offset =>
    rw [move.text_nil spared, quotedText]
    simp only [Reading.moved, Error.raise, Move.place, move.text_nil spared, List.map, id]
  | case2 offset rest =>
    rw [move.text_cons '|' spared.cut_le, quotedText, Nat.add_right_comm]
    rfl
  | case3 offset rest ih =>
    have split := move.text_append ['\\', '|'] (kept spared)
    simp only [List.cons_append, List.nil_append] at split
    rw [split, quotedText, Nat.add_right_comm, ih spared]
    rfl
  | case4 offset rest ih =>
    have split := move.text_append ['\\', '\\'] (kept spared)
    simp only [List.cons_append, List.nil_append] at split
    rw [split, quotedText, Nat.add_right_comm, ih spared]
    rfl
  | case5 offset rest notBar notBackslash more ih =>
    have behind := spared.before (reaches_quotedText (offset + 1) rest)
    rw [move.text_cons '\\' (kept spared), quotedText, Nat.add_right_comm, ih spared]
    · simp only [Reading.moved, List.map, Error.raise, Span.raise, Nat.add_right_comm, more, id]
    · exact move.text_ne_cons behind notBar
    · exact move.text_ne_cons behind notBackslash
  | case6 offset c rest notBar _ _ notBackslash ih =>
    rw [move.text_cons c (kept spared), quotedText, Nat.add_right_comm, ih spared]
    · rfl
    · exact notBar
    · exact fun _ backslash _ => notBackslash backslash
    · exact fun _ backslash _ => notBackslash backslash
    · exact notBackslash

theorem readQuoted_place (spared : move.Spares (readQuoted here).next)
    (bar : here.isAt '|' = true) :
    readQuoted (move.place here) = (readQuoted here).moved move (.raise move.distance) := by
  have head := spared.before (advances_readQuoted bar).1
  have text := congrArg Cursor.rest (move.advance_place head)
  rw [readQuoted, text]
  simp only [Move.place, Nat.add_right_comm _ move.distance 1, quotedText_place spared]
  rfl

theorem readWordToken_place (spared : move.Spares (readWordToken here).next) :
    readWordToken (move.place here) = (readWordToken here).moved move (.raise move.distance) := by
  have head := spared.before (reaches_readWord here)
  simp only [readWordToken, readWord_place spared, move.follows_place _ head]
  split
  · rfl
  · rfl

end tokens

section options

variable {move : Move} {here : Cursor}

theorem readOperand_place (spared : move.Spares (readOperand here).next) :
    readOperand (move.place here) =
      (readOperand here).moved move (Option.map (.raise move.distance)) := by
  have head := spared.before (reaches_readOperand here)
  unfold readOperand at spared ⊢
  rw [move.isAt_place _ head, move.isAt_place _ head]
  apply Reading.ite_moved (P := fun reading => move.Spares reading.next) spared
  · intro bar spared
    rw [readQuoted_place spared bar]
    exact Reading.map_moved _ fun token => rfl
  · intro _ spared
    apply Reading.ite_moved (P := fun reading => move.Spares reading.next) spared
    · intro _ spared
      rw [readVariable_place spared]
      exact Reading.map_moved _ fun token => rfl
    · intros
      rfl

theorem readOptionValue_place (spared : move.Spares (readOptionValue here).next) :
    readOptionValue (move.place here) =
      (readOptionValue here).moved move (.raise move.distance) := by
  have head := spared.before (reaches_readOptionValue here)
  unfold readOptionValue at spared ⊢
  rw [move.isAt_place _ head, move.isAt_place _ head]
  apply Reading.ite_moved (P := fun reading => move.Spares reading.next) spared
  · intro bar spared
    rw [readQuoted_place spared bar]
    exact Reading.map_moved _ fun token => rfl
  · intro _ spared
    apply Reading.ite_moved (P := fun reading => move.Spares reading.next) spared
    · intro _ spared
      rw [readVariable_place spared]
      exact Reading.map_moved _ fun token => rfl
    · intro _ spared
      rw [readWordToken_place spared]
      exact Reading.map_moved _ fun token => rfl

theorem readOption?_place {reading : Reading OptionEntry} (found : readOption? here = some reading)
    (spared : move.Spares reading.next) :
    readOption? (move.place here) = some (reading.moved move (.raise move.distance)) := by
  simp only [readOption?] at found ⊢
  split at found
  · next present =>
    obtain rfl := Option.some.inj found
    have beforeValue := spared.before (reaches_readOptionValue _)
    have beforeBlank := beforeValue.before (reaches_skipBlank _)
    have beforeEquals := beforeBlank.before (reaches_expect '=' _)
    have afterName := beforeEquals.before (reaches_skipBlank _)
    have start := afterName.before (reaches_readWord _)
    have head := start.before (reaches_skipBlank here)
    rw [move.follows_place _ head, move.skipBlank_place start, move.follows_place _ start,
      if_pos present]
    simp only [readWord_place afterName, Reading.moved, move.skipBlank_place beforeEquals,
      expect_place '=' beforeEquals, move.skipBlank_place beforeValue, readOptionValue_place spared]
    simp [OptionEntry.raise, Span.raise, Move.place]
  · cases found

private theorem readOption?_place_none (nothing : readOption? here = none)
    (spared : move.Spares (skipBlank here)) : readOption? (move.place here) = none := by
  have head := spared.before (reaches_skipBlank here)
  simp only [readOption?] at nothing ⊢
  rw [move.follows_place _ head, move.skipBlank_place spared, move.follows_place _ spared]
  split at nothing
  · cases nothing
  · next absent => rw [if_neg absent]

/-- A repeated step commutes with a move that spares what its repetition leaves, if it finds nothing there
in the moved text either. -/
theorem many_place {step : Step α} (progresses : step.Progresses) {raise : α → α}
    (each : ∀ {here reading}, step here = some reading → move.Spares reading.next →
      step (move.place here) = some (reading.moved move raise))
    (spared : move.Spares (many step progresses here).next)
    (ends : step (move.place (many step progresses here).next) = none) :
    many step progresses (move.place here) =
      (many step progresses here).moved move (List.map raise) := by
  fun_induction many step progresses here with
  | case1 here nothing => exact many_of_none progresses ends
  | case2 here reading found more ih =>
    have behind := spared.before (reaches_many progresses reading.next)
    rw [many_of_some progresses (each found behind), Reading.moved, ih spared ends]
    simp [Reading.moved, more]

/-- A name and its options, the offsets of the options raised. -/
def raiseSignature (distance : Nat) (signature : String × List OptionEntry) :
    String × List OptionEntry := (signature.1, signature.2.map (·.raise distance))

/-- The character behind the blanks that follow tells that no other option follows. -/
theorem readSignature_place (spared : move.Spares (skipBlank (readSignature here).next)) :
    readSignature (move.place here) =
      (readSignature here).moved move (raiseSignature move.distance) := by
  have options := spared.before (reaches_skipBlank _)
  have name : move.Spares (readName here).next := options.before (reaches_many _ _)
  have ends := readOption?_place_none (many_stops readOption?_progresses _) spared
  have moved := many_place readOption?_progresses readOption?_place options ends
  simp only [readSignature, readName_place name, Reading.moved, moved]
  simp [raiseSignature]

end options

section placeholders

variable {move : Move} {here : Cursor}

theorem start_raise (distance offset : Nat) (operand : Option Operand) :
    ((operand.map (Operand.raise distance)).map fun node => node.span.start).getD
        (offset + distance) =
      (operand.map fun node => node.span.start).getD offset + distance := by
  cases operand with
  | none => rfl
  | some node => exact congrArg Span.start (node.raise_span distance)

theorem operandErrors_raise (distance : Nat) (operand : Option Operand) :
    (operand.map (Operand.raise distance)).toList.map (fun node => Error.extraContent node.span) =
      (operand.toList.map fun node => Error.extraContent node.span).map (·.raise distance) := by
  cases operand with
  | none => rfl
  | some node => exact congrArg (fun span => [Error.extraContent span]) (node.raise_span distance)

theorem optionErrors_raise (distance : Nat) (options : List OptionEntry) :
    optionErrors (options.map (·.raise distance)) =
      (optionErrors options).map (·.raise distance) := by
  simp only [optionErrors, List.head?_map, List.getLast?_map]
  cases options.head? <;> cases options.getLast? <;> rfl

/-- No change comes before the end of a placeholder: either its brace is not missing and what is cut
lies behind, or nothing is cut. -/
def Move.Keeps (move : Move) (reading : Reading Placeholder) : Prop :=
  NoBraceMissing reading.errors ∧ move.cut ≤ reading.next.rest.length ∨
    move.cut = 0 ∧ move.tail = []

theorem Move.Keeps.spares {reading : Reading Placeholder} {brace : Cursor}
    (keeps : move.Keeps reading) (errors : List Error) (found : brace.isAt '}' = true ∨ brace.rest = [])
    (split : reading.errors = errors ++ (expect '}' brace).errors)
    (next : reading.next = (expect '}' brace).next) : move.Spares brace := by
  rcases keeps with ⟨clean, cut⟩ | same
  · left
    have present : brace.isAt '}' = true := by
      rcases found with present | missing
      · exact present
      · have reported : Error.missingChar brace.offset '}' ∈ reading.errors := by
          simp [split, expect, Cursor.isAt, Cursor.follows, missing]
        exact absurd rfl (clean _ reported)
    rw [next, expect, if_pos present] at cut
    rw [Grammar.rest_eq_of_isAt present]
    exact Nat.lt_succ_of_le cut
  · exact .inr same

theorem closingBrace_place (spared : move.Spares (closingBrace here)) :
    closingBrace (move.place here) = move.place (closingBrace here) := move.skipWhile_place spared

theorem closeBody_place (body : PlaceholderBody) (errors : List Error) {after : Cursor}
    (spared : move.Spares (closingBrace (skipBlank after))) :
    closeBody (move.place here) (body.raise move.distance) (errors.map (·.raise move.distance))
        (move.place after) =
      (closeBody here body errors after).moved move (.raise move.distance) := by
  have extra := spared.before (reaches_closingBrace _)
  simp only [closeBody, move.skipBlank_place extra, closingBrace_place spared,
    expect_place '}' spared]
  simp only [Reading.moved, Move.place, Nat.add_right_cancel_iff, List.map_append]
  split
  · rfl
  · rfl

theorem closeJunk_place {start : Cursor}
    (spared : move.Spares
      (closingBrace (skipBlank (if start.isAt '}' then start else start.advance)))) :
    closeJunk (move.place here) (move.place start) =
      (closeJunk here start).moved move (.raise move.distance) := by
  have extra := spared.before (reaches_closingBrace _)
  have first := extra.before (reaches_skipBlank _)
  have reach := reaches_junk_first start
  have begins := first.before reach
  simp only [closeJunk, move.isAt_place _ begins, move.advance_place begins, Move.ite_place,
    move.skipBlank_place extra, closingBrace_place spared, expect_place '}' spared]
  generalize (if start.isAt '}' then start else start.advance) = junk at *
  have passed := reach.trans (reaches_junk_end junk).1
  simp only [Move.place_offset, Nat.add_right_cancel_iff, move.upTo_place (first.ite spared) passed]
  rfl

private theorem Move.Keeps.sigil (keeps : move.Keeps (readPlaceholder here)) :
    move.Spares (skipBlank (readOperand (skipBlank here.advance)).next) := by
  obtain ⟨brace, reach, ends⟩ := readPlaceholder_endsAt here
  obtain ⟨others, -, split⟩ := ends.errors
  exact (keeps.spares others ends.found split ends.next).before reach

/-- Reading a placeholder commutes with a move that does not come before its end. -/
theorem readPlaceholder_place (keeps : move.Keeps (readPlaceholder here)) :
    readPlaceholder (move.place here) =
      (readPlaceholder here).moved move (.raise move.distance) := by
  -- The way to the sigil is spared in every case; how far the rest is, each case knows by its own brace.
  have sigil := keeps.sigil
  have behind := sigil.before (reaches_skipBlank _)
  have start := behind.before (reaches_readOperand _)
  have inside := start.before (reaches_skipBlank _)
  have head := inside.before (Text.Cursor.reaches_advance here)
  have moved : readOperand (skipBlank (move.place here).advance) =
      (readOperand (skipBlank here.advance)).moved move (Option.map (.raise move.distance)) := by
    rw [move.advance_place head, move.skipBlank_place start, readOperand_place behind]
  have signature (spared : move.Spares (closingBrace (skipBlank
      (readSignature (skipBlank (readOperand (skipBlank here.advance)).next).advance).next))) :=
    readSignature_place (spared.before (reaches_closingBrace _))
  unfold readPlaceholder at keeps ⊢
  rw [moved]
  simp only [Reading.moved_value, Reading.moved_errors, Reading.moved_next,
    move.skipBlank_place sigil, move.isAt_place _ sigil, move.advance_place sigil] at keeps ⊢
  generalize readOperand (skipBlank here.advance) = operand at *
  apply Reading.ite_moved (P := move.Keeps) keeps
  · intro _ keeps
    have spared := keeps.spares _ (closingBrace_found _) rfl rfl
    refine Eq.trans ?_ (closeBody_place _ _ spared)
    simp only [signature spared, Reading.moved_value, Reading.moved_errors, Reading.moved_next,
      Move.place_offset, start_raise, List.map_append]
    rfl
  · intro _ keeps
    apply Reading.ite_moved (P := move.Keeps) keeps
    · intro _ keeps
      have spared := keeps.spares _ (closingBrace_found _) rfl rfl
      refine Eq.trans ?_ (closeBody_place _ _ spared)
      simp only [signature spared, Reading.moved_value, Reading.moved_errors, Reading.moved_next,
        operandErrors_raise, List.map_append]
      rfl
    · intro _ keeps
      apply Reading.ite_moved (P := move.Keeps) keeps
      · intro _ keeps
        have spared := keeps.spares _ (closingBrace_found _) rfl rfl
        refine Eq.trans ?_ (closeBody_place _ _ spared)
        simp only [signature spared, Reading.moved_value, Reading.moved_errors, Reading.moved_next,
          raiseSignature, operandErrors_raise, optionErrors_raise, List.map_append]
        rfl
      · intro _ keeps
        obtain ⟨value, errors, next⟩ := operand
        rcases value with _ | ⟨token⟩ | ⟨token⟩
        · exact closeJunk_place (keeps.spares [_] (closingBrace_found _) rfl rfl)
        · have spared := keeps.spares _ (closingBrace_found _) rfl rfl
          exact closeBody_place (.quoted token) errors spared
        · have spared := keeps.spares _ (closingBrace_found _) rfl rfl
          exact closeBody_place (.variable token) errors spared

end placeholders

section sources

theorem readPlaceholder_raised (distance offset : Nat) (text : List Char) :
    readPlaceholder ⟨offset + distance, text⟩ =
      (readPlaceholder ⟨offset, text⟩).moved ⟨distance, 0, []⟩ (.raise distance) := by
  have same : Cursor.mk (offset + distance) text = Move.place ⟨distance, 0, []⟩ ⟨offset, text⟩ := by
    simp [Move.place, Move.text]
  rw [same, readPlaceholder_place (.inr ⟨rfl, rfl⟩)]

/-- Offsets that are raised by nothing are the same: it is what moving a place nowhere does to them. -/
theorem readPlaceholder_raise_zero (here : Cursor) :
    (readPlaceholder here).value.raise 0 = (readPlaceholder here).value ∧
      (readPlaceholder here).errors.map (·.raise 0) = (readPlaceholder here).errors := by
  have same := readPlaceholder_raised 0 here.offset here.rest
  exact ⟨congrArg Reading.value same.symm, congrArg Reading.errors same.symm⟩

/-- Up to its closing brace a placeholder is read in the same way, whatever follows it. -/
theorem readPlaceholder_append {here : Cursor} {passed : List Char} (tail : List Char)
    (split : here.rest = passed ++ (readPlaceholder here).next.rest)
    (closed : NoBraceMissing (readPlaceholder here).errors) :
    (readPlaceholder ⟨here.offset, passed ++ tail⟩).value = (readPlaceholder here).value ∧
      (readPlaceholder ⟨here.offset, passed ++ tail⟩).errors = (readPlaceholder here).errors := by
  let move : Move := ⟨0, (readPlaceholder here).next.rest.length, tail⟩
  have same : Cursor.mk here.offset (passed ++ tail) = move.place here := by
    rw [Move.place, split, Move.text_append passed (Nat.le_refl _)]
    simp [move, Move.text]
  have keeps : move.Keeps (readPlaceholder here) := .inl ⟨closed, Nat.le_refl _⟩
  obtain ⟨node, errors⟩ := readPlaceholder_raise_zero here
  rw [same, readPlaceholder_place keeps]
  exact ⟨node, errors⟩

/-- Wherever a brace opens in a source, its placeholder depends on its own text alone. Without the text in
front of it, it is read in the same way at offset zero; and if it is closed, it is read in the same way
when another text follows it. -/
theorem parsePlaceholder_local (before after : List Char) :
    let source := before ++ '{' :: after
    let start := byteLength before
    let parsed := parsePlaceholder source start
    let alone := parsePlaceholder ('{' :: after) 0
    parsed = (alone.1.raise start, alone.2.map (·.raise start)) ∧
      ((∀ error ∈ parsed.2, error.char? ≠ some '}') →
        ∃ kept, Text.slice? source 0 parsed.1.span.stop = some kept ∧
          ∀ tail, parsePlaceholder (kept ++ tail) start = parsed) := by
  intro source start parsed alone
  have reads : parsed = _ := Grammar.parsePlaceholder_brace before after
  constructor
  · have readsAlone : alone = _ := Grammar.parsePlaceholder_brace [] after
    have moved := readPlaceholder_raised start 0 ('{' :: after)
    rw [Nat.zero_add] at moved
    rw [reads, readsAlone, moved]
    rfl
  · intro closed
    rw [reads] at closed ⊢
    obtain ⟨brace, -, ends⟩ := readPlaceholder_endsAt ⟨byteLength before, '{' :: after⟩
    have advances : Text.Cursor.Advances ⟨byteLength before, '{' :: after⟩ _ :=
      advances_readPlaceholder (by simp)
    have place := (Within.of_append before ('{' :: after)).trans advances.1
    obtain ⟨passed, split, -⟩ := advances.1
    cases passed with
    | nil => exact absurd (congrArg List.length split) (Nat.ne_of_gt advances.2)
    | cons c inside =>
      obtain ⟨rfl, behind⟩ := List.cons.inj split
      refine ⟨before ++ '{' :: inside, ?_, ?_⟩
      · have cut := (Within.start source).slice?_eq place
        rw [Text.Cursor.upTo_eq_of_rest_eq (by rw [Cursor.start, List.append_assoc, ← split])] at cut
        rw [ends.stop]
        exact cut
      · intro tail
        obtain ⟨node, errors⟩ := readPlaceholder_append tail split closed
        rw [List.append_assoc, List.cons_append, Grammar.parsePlaceholder_brace]
        exact Prod.ext node errors

/-- A quotation that holds a brace and an escaped bar, closed behind extra content; what follows looks as
if it went on. -/
theorem parsePlaceholder_local_quotation :
    let before := ['é']
    let after := "|\x7d\\||  y\x7d|\x7d".toList
    let parsed := parsePlaceholder (before ++ '{' :: after) 2
    (∀ error ∈ parsed.2, error.char? ≠ some '}') ∧
      ∃ kept, Text.slice? (before ++ '{' :: after) 0 parsed.1.span.stop = some kept ∧
        ∀ tail, parsePlaceholder (kept ++ tail) 2 = parsed := by
  intro before after parsed
  have closed : ∀ error ∈ parsed.2, error.char? ≠ some '}' := by decide +kernel
  exact ⟨closed, (parsePlaceholder_local before after).2 closed⟩

end sources

end Phrasebook.Syntax
