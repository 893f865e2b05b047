import Mathlib.Data.List.Chain
import Phrasebook.Proofs.Grammar.Closing
import Phrasebook.Proofs.Grammar.Decoding

namespace Phrasebook.Syntax

open Text (Cursor byteLength)
open Text.Cursor (Reaches Within)
open Grammar (isBrace)

section texts

/-- What a stretch of pattern text says. A backslash before a brace or a backslash escapes it; any other
stands for itself, as do all other characters. A brace that is not escaped is not text. -/
def plainText? : List Char → Option (List Char)
  | [] => some []
  | '{' :: _ => none
  | '}' :: _ => none
  | '\\' :: '\\' :: rest => (plainText? rest).map ('\\' :: ·)
  | '\\' :: '{' :: rest => (plainText? rest).map ('{' :: ·)
  | '\\' :: '}' :: rest => (plainText? rest).map ('}' :: ·)
  | c :: rest => (plainText? rest).map (c :: ·)

private theorem eq_nil_of_plainText? {written : List Char} (silent : plainText? written = some []) :
    written = [] := by
  fun_cases plainText? written with
  | case1 => rfl
  | _ => simp [plainText?] at silent

/-- A run of pattern text is what the characters that it passes say. The induction is on the run; behind a
backslash that escapes nothing it goes on with a character that could not be escaped. -/
theorem plainText?_patternText (offset : Nat) (text : List Char) :
    ∃ written, text = written ++ (patternText offset text).next.rest ∧
      plainText? written = some (patternText offset text).value := by
  fun_induction patternText offset text with
  | case1 offset => exact ⟨[], rfl, rfl⟩
  | case2 offset rest => exact ⟨[], rfl, rfl⟩
  | case3 offset rest => exact ⟨[], rfl, rfl⟩
  | case4 offset rest ih =>
    obtain ⟨written, split, meaning⟩ := ih
    exact ⟨'\\' :: '\\' :: written, congrArg (['\\', '\\'] ++ ·) split, by simp [plainText?, meaning]⟩
  | case5 offset rest ih =>
    obtain ⟨written, split, meaning⟩ := ih
    exact ⟨'\\' :: '{' :: written, congrArg (['\\', '{'] ++ ·) split, by simp [plainText?, meaning]⟩
  | case6 offset rest ih =>
    obtain ⟨written, split, meaning⟩ := ih
    exact ⟨'\\' :: '}' :: written, congrArg (['\\', '}'] ++ ·) split, by simp [plainText?, meaning]⟩
  | case7 offset rest notBackslash notOpen notClose more ih =>
    obtain ⟨written, split, meaning⟩ := ih
    refine ⟨'\\' :: written, congrArg ('\\' :: ·) split, ?_⟩
    have other {c : Char} (unlike : ∀ tail, rest = c :: tail → False) :
        ∀ tail, written = c :: tail → False := by
      rintro tail rfl
      exact unlike _ split
    rw [plainText?, meaning, Option.map_some]
    · exact fun contra => absurd contra (by decide)
    · exact fun contra => absurd contra (by decide)
    · exact fun tail _ => other notBackslash tail
    · exact fun tail _ => other notOpen tail
    · exact fun tail _ => other notClose tail
  | case8 offset c rest notOpen notClose notEscape notEscapeOpen notEscapeClose notBackslash ih =>
    obtain ⟨written, split, meaning⟩ := ih
    refine ⟨c :: written, congrArg (c :: ·) split, ?_⟩
    rw [plainText?, meaning]
    · rfl
    · exact notOpen
    · exact notClose
    · exact fun _ backslash _ => notBackslash backslash
    · exact fun _ backslash _ => notBackslash backslash
    · exact fun _ backslash _ => notBackslash backslash

private theorem patternText_stops (offset : Nat) (text : List Char) :
    (patternText offset text).next.follows (!isBrace ·) = false := by
  fun_induction patternText offset text with
  | case1 offset => rfl
  | case2 offset rest => rfl
  | case3 offset rest => rfl
  | case4 offset rest ih => exact ih
  | case5 offset rest ih => exact ih
  | case6 offset rest ih => exact ih
  | case7 offset rest _ _ _ more ih => exact ih
  | case8 offset c rest _ _ _ _ _ _ ih => exact ih

end texts

section elements

/-- Spans that follow each other without gaps, from one offset to another. -/
inductive Tiles : Nat → Nat → List Span → Prop
  | nil (offset : Nat) : Tiles offset offset []
  | cons (rest : Tiles middle last spans) : Tiles first last (⟨first, middle⟩ :: spans)

/-- If each reading of a step spans all that it passes, so do the nodes of the repeated step together. -/
theorem tiles_many {step : Step α} (progresses : step.Progresses) {span : α → Span}
    (each : ∀ {here reading}, step here = some reading →
      span reading.value = ⟨here.offset, reading.next.offset⟩) (here : Cursor) :
    Tiles here.offset (many step progresses here).next.offset
      ((many step progresses here).value.map span) := by
  fun_induction many step progresses here with
  | case1 here nothing => exact .nil here.offset
  | case2 here first found more ih =>
    rw [List.map_cons, each found]
    exact .cons ih

private theorem exists_of_head?_many {step : Step α} {progresses : step.Progresses} {here : Cursor} {value : α}
    (head : value ∈ (many step progresses here).value.head?) :
    ∃ reading, step here = some reading ∧ reading.value = value := by
  cases found : step here with
  | none =>
    rw [many_of_none progresses found] at head
    cases head
  | some reading =>
    rw [many_of_some progresses found] at head
    exact ⟨reading, rfl, Option.some.inj head⟩

def Element.span : Element → Span
  | .text token => token.span
  | .placeholder node => node.span

def Element.isText : Element → Bool
  | .text _ => true
  | .placeholder _ => false

/-- One of two neighbours is a placeholder. -/
def Element.Apart (element next : Element) : Prop := ¬ (element.isText ∧ next.isText)

/-- The run of text that starts at a place, as an element. -/
def textElement (here : Cursor) : Reading Element :=
  let text := patternText here.offset here.rest
  ⟨.text ⟨⟨here.offset, text.next.offset⟩, String.ofList text.value⟩, text.errors, text.next⟩

variable {here : Cursor} {reading : Reading Element}

/-- An element is a placeholder where a brace opens, and a run of text where there is no brace. -/
theorem readElement?_cases (found : readElement? here = some reading) :
    (here.isAt '{' = true ∧ reading = (readPlaceholder here).map .placeholder) ∨
      (here.follows (!isBrace ·) = true ∧ reading = textElement here) := by
  simp only [readElement?] at found
  split at found
  · cases found
  · next more =>
    obtain ⟨present, notClose⟩ := not_or.mp more
    split at found
    · next opens => exact .inl ⟨opens, (Option.some.inj found).symm⟩
    · next notOpen =>
      refine .inr ⟨?_, (Option.some.inj found).symm⟩
      obtain ⟨offset, rest⟩ := here
      cases rest with
      | nil => exact absurd rfl present
      | cons c rest =>
        simp only [Grammar.isAt_cons, beq_iff_eq] at notOpen notClose
        simp [isBrace, notOpen, notClose]

private theorem ends_of_readElement?_eq_none (nothing : readElement? here = none) :
    here.isAt '}' = true ∨ here.rest = [] := by
  simp only [readElement?] at nothing
  split at nothing
  · next ends => exact ends.symm
  · split at nothing <;> cases nothing

theorem readElement?_span (found : readElement? here = some reading) :
    reading.value.span = ⟨here.offset, reading.next.offset⟩ := by
  rcases readElement?_cases found with ⟨-, rfl⟩ | ⟨-, rfl⟩
  · obtain ⟨brace, -, ends⟩ := readPlaceholder_endsAt here
    have start := readPlaceholder_span_start here
    have stop := ends.stop
    simp only [Reading.map, Element.span]
    rw [← start, ← stop]
  · rfl

private theorem readElement?_apart {other : Reading Element} (found : readElement? here = some reading)
    (next : readElement? reading.next = some other) : reading.value.Apart other.value := by
  rintro ⟨text, text'⟩
  rcases readElement?_cases found with ⟨-, rfl⟩ | ⟨-, rfl⟩
  · cases text
  · rcases readElement?_cases next with ⟨-, rfl⟩ | ⟨follows, rfl⟩
    · cases text'
    · have ended := patternText_stops here.offset here.rest
      exact absurd (follows.symm.trans ended) (by decide)

private theorem apart_elements (here : Cursor) :
    (many readElement? readElement?_progresses here).value.IsChain Element.Apart := by
  fun_induction many readElement? readElement?_progresses here with
  | case1 here nothing => exact .nil
  | case2 here first found more ih =>
    refine List.isChain_cons.mpr ⟨?_, ih⟩
    intro next head
    obtain ⟨reading, behind, rfl⟩ := exists_of_head?_many head
    exact readElement?_apart found behind

/-- The token is a text that is not empty, and it is what its span of the source says. -/
structure Token.Transcribes (source : List Char) (token : Token) : Prop where
  nonempty : token.text ≠ ""
  written : (Text.slice? source token.span.start token.span.stop).bind plainText? =
    some token.text.toList

theorem readElement?_transcribes {source : List Char} (place : Within source here)
    (found : readElement? here = some reading) :
    ∀ token, reading.value = .text token → token.Transcribes source := by
  intro token isText
  have advances := readElement?_progresses here reading found
  rcases readElement?_cases found with ⟨-, rfl⟩ | ⟨-, rfl⟩
  · cases isText
  · obtain rfl := Element.text.inj isText
    obtain ⟨written, split, meaning⟩ := plainText?_patternText here.offset here.rest
    have slice := place.slice?_eq (reaches_patternText here.offset here.rest)
    rw [Text.Cursor.upTo_eq_of_rest_eq split] at slice
    constructor
    · intro empty
      have silent : (patternText here.offset here.rest).value = [] :=
        String.ofList_eq_empty_iff.mp empty
      rw [silent] at meaning
      rw [eq_nil_of_plainText? meaning, List.nil_append] at split
      exact Nat.ne_of_gt advances.2 (congrArg List.length split)
    · rw [slice, Option.bind_some, meaning, String.toList_ofList]

end elements

section patterns

variable {source : List Char} {here : Cursor}

/-- The pattern is its opening brace, its elements without gaps, and its closing brace; at the end of the
source that may be missing. Its texts are not empty, hold what the source says, and no two of them
are neighbours. -/
structure Pattern.Tiled (source : List Char) (pattern : Pattern) : Prop where
  opens : Text.slice? source pattern.span.start (pattern.span.start + 1) = some ['{']
  tiles : ∃ last, Tiles (pattern.span.start + 1) last (pattern.elements.map Element.span) ∧
    (Text.slice? source last (last + 1) = some ['}'] ∧ pattern.span.stop = last + 1 ∨
      last = byteLength source ∧ pattern.span.stop = last)
  apart : pattern.elements.IsChain Element.Apart
  texts : ∀ token, .text token ∈ pattern.elements → token.Transcribes source

theorem exists_of_mem_many {step : Step α} {progresses : step.Progresses} {value : α}
    (member : value ∈ (many step progresses here).value) :
    ∃ place reading, Reaches here place ∧ step place = some reading ∧ reading.value = value := by
  fun_induction many step progresses here with
  | case1 here nothing => cases member
  | case2 here first found more ih =>
    rcases List.mem_cons.mp member with rfl | later
    · exact ⟨here, first, Reaches.refl here, found, rfl⟩
    · obtain ⟨place, reading, reach, behind, same⟩ := ih later
      exact ⟨place, reading, (progresses here first found).1.trans reach, behind, same⟩

private theorem readPattern_tiled (place : Within source here) (opens : here.isAt '{' = true) :
    (readPattern here).value.Tiled source := by
  have inside := Text.Cursor.reaches_advance here
  have first : here.advance.offset = here.offset + 1 := Grammar.advance_offset_of_isAt opens
  have tiles := tiles_many readElement?_progresses readElement?_span here.advance
  have behind := place.trans (inside.trans (reaches_many readElement?_progresses here.advance))
  have ends := ends_of_readElement?_eq_none (many_stops readElement?_progresses here.advance)
  constructor
  · exact place.slice?_of_isAt opens
  · rw [first] at tiles
    refine ⟨_, tiles, ?_⟩
    rcases ends with close | missing
    · left
      refine ⟨Within.slice?_of_isAt behind close, ?_⟩
      simp only [readPattern, expect, if_pos close]
      exact Grammar.advance_offset_of_isAt close
    · right
      refine ⟨Within.offset_of_rest_nil behind missing, ?_⟩
      simp [readPattern, expect, Cursor.isAt, Cursor.follows, missing]
  · exact apart_elements here.advance
  · intro token member
    obtain ⟨start, reading, reach, found, same⟩ := exists_of_mem_many member
    exact readElement?_transcribes ((place.trans inside).trans reach) found token same

/-- The patterns of a body: the body itself, or those of its variants. -/
def Body.patterns : Body → List Pattern
  | .pattern node => [node]
  | .select node => node.variants.map Variant.value
  | .junk _ => []

/-- Every pattern in a template was read where a brace opens, but for one that is missing from its variant. -/
theorem exists_of_mem_patterns {pattern : Pattern}
    (member : pattern ∈ (parseTemplate source).1.body.patterns) :
    (∃ here, Within source here ∧ here.isAt '{' = true ∧ (readPattern here).value = pattern) ∨
      (pattern.span.start = pattern.span.stop ∧ pattern.elements = []) := by
  have before := (reaches_many readDeclaration?_progresses (Cursor.start source)).trans
    (reaches_skipBlank _)
  have place := (Within.start source).trans before
  simp only [parseTemplate] at member
  generalize skipBlank (many readDeclaration? readDeclaration?_progresses
    (Cursor.start source)).next = start at member place
  unfold readBody at member
  split at member
  · next after keyword =>
    obtain ⟨variant, listed, rfl⟩ := List.mem_map.mp member
    obtain ⟨origin, reading, reach, found, rfl⟩ := exists_of_mem_many listed
    obtain ⟨keys, keyword', rfl⟩ := Option.map_eq_some_iff.mp found
    have way := (advances_keyword? (by simp) keyword).1.trans <|
      (reaches_many readSelector?_progresses after).trans <| reach.trans <|
        (reaches_skipBlank origin).trans <| (advances_keyword? (by simp) keyword').1.trans <|
          (reaches_many readKey?_progresses keys).trans (reaches_skipBlank _)
    simp only [readVariantPattern]
    split
    · next opens => exact .inl ⟨_, place.trans way, opens, rfl⟩
    · exact .inr ⟨rfl, rfl⟩
  · split at member
    · next opens =>
      obtain rfl := List.mem_singleton.mp member
      exact .inl ⟨_, place, opens, rfl⟩
    · cases member

/-- The elements of every pattern in a template tile it: its body, or the patterns of its variants. Only a
pattern that is missing from its variant has no characters. -/
theorem parseTemplate_patterns_tiled (source : List Char) :
    ∀ pattern ∈ (parseTemplate source).1.body.patterns,
      pattern.span.start < pattern.span.stop → pattern.Tiled source := by
  intro pattern member some_source
  rcases exists_of_mem_patterns member with ⟨here, place, opens, rfl⟩ | ⟨missing, -⟩
  · exact readPattern_tiled place opens
  · exact absurd missing (Nat.ne_of_lt some_source)

/-- A variant's pattern that nothing closes, with an escaped brace and with backslashes that escape nothing,
the last of them at the end of the source. -/
theorem parseTemplate_patterns_tiled_unclosed :
    let source := "match \x7b$x\x7d when a \x7bé\\\x7b\\c\x7b$y\x7d\\".toList
    let pattern : Pattern := ⟨⟨18, 30⟩, [.text ⟨⟨19, 25⟩, "é\x7b\\c"⟩,
      .placeholder ⟨⟨25, 29⟩, .variable ⟨⟨26, 28⟩, "y"⟩⟩, .text ⟨⟨29, 30⟩, "\\"⟩]⟩
    pattern ∈ (parseTemplate source).1.body.patterns ∧ pattern.span.start < pattern.span.stop ∧
      pattern.Tiled source := by
  intro source pattern
  have member : pattern ∈ (parseTemplate source).1.body.patterns := by decide +kernel
  have some_source : pattern.span.start < pattern.span.stop := by decide
  exact ⟨member, some_source, parseTemplate_patterns_tiled source pattern member some_source⟩

end patterns

end Phrasebook.Syntax
