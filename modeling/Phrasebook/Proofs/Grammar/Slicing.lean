import Phrasebook.Proofs.Grammar.Outline
import Phrasebook.Syntax.Slicing

/-!
Reading by offsets does what reading from place to place does, and so none of its slices fails. From a
place of the source every reader goes on to a later place, at which the next slice begins.
-/

namespace Phrasebook.Syntax

open Text (Cursor byteLength)
open Text.Cursor (Reaches Within)

/-- A reading as a stretch: of the place behind it, the offset is kept. -/
def Reading.stretch (reading : Reading α) : Stretch α :=
  ⟨reading.value, reading.errors, reading.next.offset⟩

@[simp] theorem Reading.stretch_value (reading : Reading α) :
    reading.stretch.value = reading.value := rfl

@[simp] theorem Reading.stretch_errors (reading : Reading α) :
    reading.stretch.errors = reading.errors := rfl

@[simp] theorem Reading.stretch_next (reading : Reading α) :
    reading.stretch.next = reading.next.offset := rfl

namespace Slicing

section slices

variable {source : List Char} {here later : Cursor}

theorem follows_eq (place : Within source here) (test : Char → Bool) :
    follows source test here.offset = some (here.follows test) := by
  rw [follows, place.sliceFrom?_eq]
  rfl

theorem isAt_eq (place : Within source here) (c : Char) :
    isAt source c here.offset = some (here.isAt c) := follows_eq place (· == c)

theorem run_eq (place : Within source here) (test : Char → Bool) :
    run source test here.offset = some (here.rest.takeWhile test) := by
  rw [run, place.sliceFrom?_eq]
  rfl

theorem skipBlank_eq (place : Within source here) :
    skipBlank source here.offset = some (Syntax.skipBlank here).offset := by
  rw [skipBlank, run_eq place]
  rfl

theorem keyword?_eq (place : Within source here) (word : List Char) :
    keyword? source word here.offset = some ((Syntax.keyword? word here).map Cursor.offset) := by
  simp only [keyword?, place.sliceFrom?_eq, Syntax.keyword?, Text.Cursor.after?, Option.bind_eq_bind,
    Option.bind_some]
  split
  · next present =>
    have found : here.after? word =
        some ⟨here.offset + byteLength word, here.rest.drop word.length⟩ := by
      rw [Text.Cursor.after?, if_pos present]
    have next := follows_eq (place.trans (Text.Cursor.reaches_after? found)) isNameChar
    simp only at next
    simp only [next, Option.bind_some, Option.filter_some]
    split <;> simp_all
  · rfl

theorem advance_offset {c : Char} (present : here.isAt c = true) (single : c.utf8Size = 1) :
    here.offset + 1 = here.advance.offset := by
  rw [Grammar.advance_offset_of_isAt present, single]

theorem expect_eq (place : Within source here) (c : Char) (single : c.utf8Size = 1) :
    expect source c here.offset = some (Syntax.expect c here).stretch := by
  simp only [expect, isAt_eq place, Syntax.expect, Option.bind_eq_bind, Option.bind_some]
  split
  · next present =>
    rw [advance_offset present single]
    rfl
  · rfl

theorem many_of_none {step : SlicedStep α} {pos : Nat} (nothing : step pos = some none) :
    many source step pos = some ⟨[], [], pos⟩ := by
  rw [many, nothing]
  rfl

/-- What a step reads, up to a later place of the source, comes before what the next ones read. -/
theorem many_of_some {step : SlicedStep α} {pos : Nat} {first : Stretch α}
    (found : step pos = some (some first)) (place : Within source later)
    (next : first.next = later.offset) (moves : pos < later.offset) :
    many source step pos = (many source step later.offset).map fun more =>
      ⟨first.value :: more.value, first.errors ++ more.errors, more.next⟩ := by
  have inside : pos < later.offset ∧ later.offset ≤ byteLength source :=
    ⟨moves, place.isBoundary.le_byteLength⟩
  rw [many, found]
  simp only [Option.bind_eq_bind, Option.bind_some, next, if_pos inside]
  cases many source step later.offset <;> rfl

/-- If a step by offsets does what a step from place to place does, so does its repetition. The
induction is on the steps, each of which leads to a later place of the source. -/
theorem many_eq {step : Step α} (progresses : step.Progresses) {sliced : SlicedStep α}
    (each : ∀ {here}, Within source here →
      sliced here.offset = some ((step here).map Reading.stretch))
    (place : Within source here) :
    many source sliced here.offset = some (Syntax.many step progresses here).stretch := by
  fun_induction Syntax.many step progresses here with
  | case1 here nothing =>
    rw [many_of_none (by rw [each place, nothing]; rfl)]
    rfl
  | case2 here first found more ih =>
    have advance := progresses here first found
    have next := place.trans advance.1
    have read : sliced here.offset = some (some first.stretch) := by rw [each place, found]; rfl
    rw [many_of_some read next rfl advance.offset_lt, ih next]
    rfl

end slices

section texts

variable {source rest reserved : List Char} {offset : Nat} {c : Char}

theorem escaped?_nil (place : Within source ⟨offset, []⟩) :
    escaped? source reserved offset = some none := by
  simp only [escaped?, place.sliceFrom?_eq]
  rfl

theorem escaped?_cons (place : Within source ⟨offset, c :: rest⟩) (plain : c ≠ '\\') :
    escaped? source reserved offset =
      some (if reserved.contains c then none else some ⟨c, [], offset + c.utf8Size⟩) := by
  simp only [escaped?, place.sliceFrom?_eq, Option.bind_eq_bind, Option.bind_some, List.head?_cons]
  rfl

theorem escaped?_backslash (place : Within source ⟨offset, '\\' :: rest⟩) :
    escaped? source reserved offset = some (some (unescape reserved offset rest)) := by
  have next : Text.sliceFrom? source (offset + 1) = some rest := place.cons.sliceFrom?_eq
  simp only [escaped?, place.sliceFrom?_eq, Option.bind_eq_bind, Option.bind_some, List.head?_cons,
    next]
  rfl

theorem escaped?_special (place : Within source ⟨offset, '\\' :: c :: rest⟩)
    (special : c = '\\' ∨ c ∈ reserved) :
    escaped? source reserved offset = some (some ⟨c, [], offset + 2⟩) := by
  have kept : (some c).filter (fun c => c == '\\' || reserved.contains c) = some c := by
    simpa using special
  rw [escaped?_backslash place, unescape, List.head?_cons, kept]

theorem escaped?_malformed (place : Within source ⟨offset, '\\' :: rest⟩)
    (plain : ∀ c, rest.head? = some c → c ≠ '\\' ∧ c ∉ reserved) :
    escaped? source reserved offset =
      some (some ⟨'\\', [.malformed ⟨offset, offset + 1⟩], offset + 1⟩) := by
  have nothing : rest.head?.filter (fun c => c == '\\' || reserved.contains c) = none := by
    simpa [Option.filter_eq_none_iff] using plain
  rw [escaped?_backslash place, unescape, nothing]

private theorem quotedText_of_some {first : Stretch Char} {later : Cursor}
    (found : escaped? source ['|'] offset = some (some first)) (place : Within source later)
    (next : first.next = later.offset) (moves : offset < later.offset) :
    quotedText source offset = (quotedText source later.offset).map fun more =>
      ⟨first.value :: more.value, first.errors ++ more.errors, more.next⟩ := by
  simp only [quotedText, many_of_some found place next moves]
  cases many source (escaped? source ['|']) later.offset with
  | none => rfl
  | some text =>
    simp only [Option.map_some, Option.bind_eq_bind, Option.bind_some]
    cases expect source '|' text.next with
    | none => rfl
    | some closed => simp

/-- The induction is on the text, by the cases of its characters; a place of the source is passed on. -/
theorem quotedText_eq {text : List Char} (place : Within source ⟨offset, text⟩) :
    quotedText source offset = some (Syntax.quotedText offset text).stretch := by
  fun_induction Syntax.quotedText offset text with
  | case1 offset =>
    simp only [quotedText, many_of_none (escaped?_nil place), Option.bind_eq_bind, Option.bind_some,
      expect_eq place '|' rfl]
    rfl
  | case2 offset rest =>
    have ended : escaped? source ['|'] offset = some none := escaped?_cons place (by decide)
    simp only [quotedText, many_of_none ended, Option.bind_eq_bind, Option.bind_some,
      expect_eq place '|' rfl]
    rfl
  | case3 offset rest ih =>
    have next : Within source ⟨offset + 2, rest⟩ := place.cons.cons
    rw [quotedText_of_some (escaped?_special place (by simp)) next rfl (by simp), ih next]
    rfl
  | case4 offset rest ih =>
    have next : Within source ⟨offset + 2, rest⟩ := place.cons.cons
    rw [quotedText_of_some (escaped?_special place (by simp)) next rfl (by simp), ih next]
    rfl
  | case5 offset rest noBar noBackslash more ih =>
    have next : Within source ⟨offset + 1, rest⟩ := place.cons
    have plain (c) (first : rest.head? = some c) : c ≠ '\\' ∧ c ∉ ['|'] := by
      obtain ⟨others, rfl⟩ := List.head?_eq_some_iff.mp first
      simp_all
    rw [quotedText_of_some (escaped?_malformed place plain) next rfl (by simp), ih next]
    rfl
  | case6 offset c rest noBar _ _ noBackslash ih =>
    have read : escaped? source ['|'] offset = some (some ⟨c, [], offset + c.utf8Size⟩) := by
      rw [escaped?_cons place noBackslash]
      simpa using noBar
    rw [quotedText_of_some read place.cons rfl (by simp [c.utf8Size_pos]), ih place.cons]
    rfl

theorem patternText_eq {text : List Char} (place : Within source ⟨offset, text⟩) :
    many source (escaped? source ['\x7b', '\x7d']) offset =
      some (Syntax.patternText offset text).stretch := by
  fun_induction Syntax.patternText offset text with
  | case1 offset => exact many_of_none (escaped?_nil place)
  | case2 offset rest => exact many_of_none (escaped?_cons place (by decide))
  | case3 offset rest => exact many_of_none (escaped?_cons place (by decide))
  | case4 offset rest ih =>
    have next : Within source ⟨offset + 2, rest⟩ := place.cons.cons
    rw [many_of_some (escaped?_special place (by simp)) next rfl (by simp), ih next]
    rfl
  | case5 offset rest ih =>
    have next : Within source ⟨offset + 2, rest⟩ := place.cons.cons
    rw [many_of_some (escaped?_special place (by simp)) next rfl (by simp), ih next]
    rfl
  | case6 offset rest ih =>
    have next : Within source ⟨offset + 2, rest⟩ := place.cons.cons
    rw [many_of_some (escaped?_special place (by simp)) next rfl (by simp), ih next]
    rfl
  | case7 offset rest noBackslash noOpening noClosing more ih =>
    have next : Within source ⟨offset + 1, rest⟩ := place.cons
    have plain (c) (first : rest.head? = some c) : c ≠ '\\' ∧ c ∉ ['\x7b', '\x7d'] := by
      obtain ⟨others, rfl⟩ := List.head?_eq_some_iff.mp first
      simp_all
    rw [many_of_some (escaped?_malformed place plain) next rfl (by simp), ih next]
    rfl
  | case8 offset c rest noOpening noClosing _ _ _ noBackslash ih =>
    have read : escaped? source ['\x7b', '\x7d'] offset =
        some (some ⟨c, [], offset + c.utf8Size⟩) := by
      rw [escaped?_cons place noBackslash]
      simpa using ⟨noOpening, noClosing⟩
    rw [many_of_some read place.cons rfl (by simp [c.utf8Size_pos]), ih place.cons]
    rfl

end texts

section tokens

variable {source : List Char} {here : Cursor}

theorem readWord_eq (place : Within source here) :
    readWord source here.offset = some (Syntax.readWord here).stretch := by
  rw [readWord, run_eq place]
  rfl

theorem readName_eq (place : Within source here) :
    readName source here.offset = some (Syntax.readName here).stretch := by
  simp only [readName, follows_eq place, Syntax.readName, Option.bind_eq_bind, Option.bind_some]
  split
  · exact readWord_eq place
  · rfl

theorem readVariable_eq (place : Within source here) (sigil : here.isAt '$' = true) :
    readVariable source here.offset = some (Syntax.readVariable here).stretch := by
  have next := place.trans (Text.Cursor.reaches_advance here)
  simp only [readVariable, advance_offset sigil rfl, readName_eq next, Option.bind_eq_bind,
    Option.bind_some]
  rfl

theorem readQuoted_eq (place : Within source here) (bar : here.isAt '|' = true) :
    readQuoted source here.offset = some (Syntax.readQuoted here).stretch := by
  have text : quotedText source here.advance.offset =
      some (Syntax.quotedText here.advance.offset here.advance.rest).stretch :=
    quotedText_eq (place.trans (Text.Cursor.reaches_advance here))
  simp only [readQuoted, advance_offset bar rfl, text, Syntax.readQuoted, Option.bind_eq_bind,
    Option.bind_some]
  rfl

theorem readWordToken_eq (place : Within source here) :
    readWordToken source here.offset = some (Syntax.readWordToken here).stretch := by
  simp only [readWordToken, readWord_eq place, follows_eq place, Option.bind_eq_bind,
    Option.bind_some]
  rfl

end tokens

section placeholders

variable {source : List Char} {here : Cursor}

theorem readOperand_eq (place : Within source here) :
    readOperand source here.offset = some (Syntax.readOperand here).stretch := by
  simp only [readOperand, isAt_eq place, Syntax.readOperand, Option.bind_eq_bind, Option.bind_some]
  split
  · next bar =>
    rw [readQuoted_eq place bar]
    rfl
  · split
    · next sigil =>
      rw [readVariable_eq place sigil]
      rfl
    · rfl

theorem readOptionValue_eq (place : Within source here) :
    readOptionValue source here.offset = some (Syntax.readOptionValue here).stretch := by
  simp only [readOptionValue, isAt_eq place, Syntax.readOptionValue, Option.bind_eq_bind,
    Option.bind_some]
  split
  · next bar =>
    rw [readQuoted_eq place bar]
    rfl
  · split
    · next sigil =>
      rw [readVariable_eq place sigil]
      rfl
    · rw [readWordToken_eq place]
      rfl

theorem readOption?_eq (place : Within source here) :
    readOption? source here.offset = some ((Syntax.readOption? here).map Reading.stretch) := by
  have start := place.trans (reaches_skipBlank here)
  simp only [readOption?, skipBlank_eq place, follows_eq place, follows_eq start, Syntax.readOption?,
    Option.bind_eq_bind, Option.bind_some]
  split
  · have name := start.trans (reaches_readWord (Syntax.skipBlank here))
    have sign := name.trans (reaches_skipBlank _)
    have behind := sign.trans (reaches_expect '=' _)
    have value := behind.trans (reaches_skipBlank _)
    simp only [readWord_eq start, Reading.stretch_next, skipBlank_eq name, expect_eq sign '=' rfl,
      skipBlank_eq behind, readOptionValue_eq value, Option.bind_some]
    rfl
  · rfl

theorem readSignature_eq (place : Within source here) :
    readSignature source here.offset = some (Syntax.readSignature here).stretch := by
  have options := many_eq readOption?_progresses readOption?_eq
    (place.trans (reaches_readName here))
  simp only [readSignature, readName_eq place, Reading.stretch_next, options, Option.bind_eq_bind,
    Option.bind_some]
  rfl

theorem closingBrace_eq (place : Within source here) :
    closingBrace source here.offset = some (Syntax.closingBrace here).offset := by
  rw [closingBrace, run_eq place]
  rfl

theorem closeBody_eq {after : Cursor} (place : Within source after) (body : PlaceholderBody)
    (errors : List Error) :
    closeBody source here.offset body errors after.offset =
      some (Syntax.closeBody here body errors after).stretch := by
  have extra := place.trans (reaches_skipBlank after)
  have brace := extra.trans (reaches_closingBrace _)
  simp only [closeBody, skipBlank_eq place, closingBrace_eq extra, expect_eq brace '\x7d' rfl,
    Option.bind_eq_bind, Option.bind_some]
  rfl

theorem skipJunk_eq (place : Within source here) :
    skipJunk source here.offset =
      some (if here.isAt '\x7d' then here else here.advance).offset := by
  rw [skipJunk, place.sliceFrom?_eq, apply_ite Cursor.offset]
  obtain ⟨offset, rest⟩ := here
  cases rest <;> rfl

theorem closeJunk_eq {start : Cursor} (place : Within source start) :
    closeJunk source here.offset start.offset = some (Syntax.closeJunk here start).stretch := by
  have begins := reaches_junk_first start
  have behind := place.trans begins
  have extra := behind.trans (reaches_skipBlank _)
  have brace := extra.trans (reaches_closingBrace _)
  have junk := place.slice?_eq (begins.trans (reaches_junk_end _).1)
  rw [apply_ite Cursor.offset] at junk
  simp only [closeJunk, skipJunk_eq place, skipBlank_eq behind, closingBrace_eq extra,
    expect_eq brace '\x7d' rfl, junk, Option.bind_eq_bind, Option.bind_some]
  simp only [Syntax.closeJunk, Reading.stretch, apply_ite Cursor.offset]
  rfl

theorem readPlaceholder_eq (place : Within source here) (opens : here.isAt '\x7b' = true) :
    readPlaceholder source here.offset = some (Syntax.readPlaceholder here).stretch := by
  have inner := place.trans (Text.Cursor.reaches_advance here)
  have start := inner.trans (reaches_skipBlank _)
  have operand := start.trans (reaches_readOperand _)
  have sigil := operand.trans (reaches_skipBlank _)
  have name := sigil.trans (Text.Cursor.reaches_advance _)
  have signature := name.trans (reaches_readSignature _)
  simp only [readPlaceholder, Syntax.readPlaceholder, advance_offset opens rfl, skipBlank_eq inner,
    readOperand_eq start, Reading.stretch_next, skipBlank_eq operand, isAt_eq sigil,
    Option.bind_eq_bind, Option.bind_some]
  split
  · next call =>
    simp only [advance_offset call rfl, readSignature_eq name, Option.bind_some]
    exact closeBody_eq signature _ _
  · split
    · next opening =>
      simp only [advance_offset opening rfl, readSignature_eq name, Option.bind_some]
      exact closeBody_eq signature _ _
    · split
      · next closing =>
        simp only [advance_offset closing rfl, readSignature_eq name, Option.bind_some]
        exact closeBody_eq signature _ _
      · simp only [Reading.stretch_value]
        cases value : (Syntax.readOperand (Syntax.skipBlank here.advance)).value with
        | none => exact closeJunk_eq sigil
        | some node => cases node <;> exact closeBody_eq operand _ _

end placeholders

section templates

variable {source : List Char} {here : Cursor}

theorem readElement?_eq (place : Within source here) :
    readElement? source here.offset = some ((Syntax.readElement? here).map Reading.stretch) := by
  simp only [readElement?, place.sliceFrom?_eq, isAt_eq place, Syntax.readElement?,
    Option.bind_eq_bind, Option.bind_some]
  split
  · rfl
  · split
    · next opens =>
      rw [readPlaceholder_eq place opens]
      rfl
    · rw [patternText_eq place]
      rfl

theorem readPattern_eq (place : Within source here) (opens : here.isAt '\x7b' = true) :
    readPattern source here.offset = some (Syntax.readPattern here).stretch := by
  have inner := place.trans (Text.Cursor.reaches_advance here)
  have elements := many_eq readElement?_progresses readElement?_eq inner
  have behind := inner.trans (reaches_many readElement?_progresses _)
  simp only [readPattern, advance_offset opens rfl, elements, Reading.stretch_next,
    expect_eq behind '\x7d' rfl, Option.bind_eq_bind, Option.bind_some]
  rfl

theorem readTarget_eq (place : Within source here) :
    readTarget source here.offset = some (Syntax.readTarget here).stretch := by
  simp only [readTarget, isAt_eq place, Syntax.readTarget, Option.bind_eq_bind, Option.bind_some]
  split
  · next sigil => exact readVariable_eq place sigil
  · rfl

theorem readDeclared_eq (place : Within source here) :
    readDeclared source here.offset = some (Syntax.readDeclared here).stretch := by
  simp only [readDeclared, isAt_eq place, Syntax.readDeclared, Option.bind_eq_bind,
    Option.bind_some]
  split
  · next opens => exact readPlaceholder_eq place opens
  · rfl

theorem readDeclaration?_eq (place : Within source here) :
    readDeclaration? source here.offset =
      some ((Syntax.readDeclaration? here).map Reading.stretch) := by
  have start := place.trans (reaches_skipBlank here)
  simp only [readDeclaration?, skipBlank_eq place, keyword?_eq start, Syntax.readDeclaration?,
    Option.bind_eq_bind, Option.bind_some]
  cases keyword : Syntax.keyword? ['l', 'e', 't'] (Syntax.skipBlank here) with
  | none => rfl
  | some after =>
    have word := start.trans (advances_keyword? (by simp) keyword).1
    have name := word.trans (reaches_skipBlank after)
    have target := name.trans (reaches_readTarget _)
    have sign := target.trans (reaches_skipBlank _)
    have equals := sign.trans (reaches_expect '=' _)
    have value := equals.trans (reaches_skipBlank _)
    simp only [Option.map_some, skipBlank_eq word, readTarget_eq name, Reading.stretch_next,
      skipBlank_eq target, expect_eq sign '=' rfl, skipBlank_eq equals, readDeclared_eq value,
      Option.bind_some]
    rfl

theorem readSelector?_eq (place : Within source here) :
    readSelector? source here.offset =
      some ((Syntax.readSelector? here).map Reading.stretch) := by
  have start := place.trans (reaches_skipBlank here)
  simp only [readSelector?, skipBlank_eq place, isAt_eq start, Syntax.readSelector?,
    Option.bind_eq_bind, Option.bind_some]
  split
  · next opens =>
    rw [readPlaceholder_eq start opens]
    rfl
  · rfl

theorem readKey?_eq (place : Within source here) :
    readKey? source here.offset = some ((Syntax.readKey? here).map Reading.stretch) := by
  have start := place.trans (reaches_skipBlank here)
  simp only [readKey?, skipBlank_eq place, follows_eq place, isAt_eq start, follows_eq start,
    Syntax.readKey?, Option.bind_eq_bind, Option.bind_some]
  split
  · rfl
  · split
    · next star =>
      rw [advance_offset star rfl]
      rfl
    · split
      · next bar =>
        rw [readQuoted_eq start bar]
        rfl
      · split
        · rw [readWordToken_eq start]
          rfl
        · rfl

theorem readVariantPattern_eq (place : Within source here) :
    readVariantPattern source here.offset = some (Syntax.readVariantPattern here).stretch := by
  simp only [readVariantPattern, isAt_eq place, Syntax.readVariantPattern, Option.bind_eq_bind,
    Option.bind_some]
  split
  · next opens => exact readPattern_eq place opens
  · rfl

theorem readVariant?_eq (selectorCount : Nat) (place : Within source here) :
    readVariant? source selectorCount here.offset =
      some ((Syntax.readVariant? selectorCount here).map Reading.stretch) := by
  have start := place.trans (reaches_skipBlank here)
  simp only [readVariant?, skipBlank_eq place, keyword?_eq start, Syntax.readVariant?,
    Option.bind_eq_bind, Option.bind_some]
  cases keyword : Syntax.keyword? ['w', 'h', 'e', 'n'] (Syntax.skipBlank here) with
  | none => rfl
  | some after =>
    have word := start.trans (advances_keyword? (by simp) keyword).1
    have keys := word.trans (reaches_many readKey?_progresses after)
    have value := keys.trans (reaches_skipBlank _)
    simp only [Option.map_some, many_eq readKey?_progresses readKey?_eq word, Reading.stretch_next,
      skipBlank_eq keys, readVariantPattern_eq value, Option.bind_some]
    rfl

theorem readSelect_eq {after : Cursor} (place : Within source after) :
    readSelect source here.offset after.offset = some (Syntax.readSelect here after).stretch := by
  have selectors := many_eq readSelector?_progresses readSelector?_eq place
  have first := place.trans (reaches_many readSelector?_progresses after)
  have progresses :=
    readVariant?_progresses (Syntax.many Syntax.readSelector? readSelector?_progresses after).value.length
  have variants := many_eq progresses (readVariant?_eq _) first
  have behind := first.trans (reaches_many progresses _)
  simp only [readSelect, selectors, Reading.stretch_next, Reading.stretch_value, skipBlank_eq first,
    variants, skipBlank_eq behind, Option.bind_eq_bind, Option.bind_some]
  rfl

theorem readBody_eq (place : Within source here) :
    readBody source here.offset = some (Syntax.readBody here).stretch := by
  simp only [readBody, keyword?_eq place, Syntax.readBody, Option.bind_eq_bind, Option.bind_some]
  cases keyword : Syntax.keyword? ['m', 'a', 't', 'c', 'h'] here with
  | some after =>
    have word := place.trans (advances_keyword? (by simp) keyword).1
    simp only [Option.map_some, readSelect_eq word, Option.bind_some]
    rfl
  | none =>
    simp only [Option.map_none, isAt_eq place, Option.bind_some]
    split
    · next opens =>
      rw [readPattern_eq place opens]
      rfl
    · simp only [place.sliceFrom?_eq, ← place.endOffset_eq, Option.bind_some]
      rfl

end templates

section sources

/-- Slices of the source, at offsets that only move on, read a placeholder. -/
theorem parsePlaceholder_eq (source : List Char) (start : Nat) :
    parsePlaceholder source start = some (Syntax.parsePlaceholder source start) := by
  cases cut : Text.splitAtOffset? source start with
  | none =>
    have nowhere : isAt source '\x7b' start = none := by
      rw [isAt, follows, Text.sliceFrom?, cut]
      rfl
    simp only [parsePlaceholder, Syntax.parsePlaceholder, nowhere, Cursor.at?, cut]
    rfl
  | some parts =>
    obtain ⟨before, rest⟩ := parts
    obtain ⟨rfl, rfl⟩ := Text.eq_append_of_splitAtOffset? cut
    have place := Within.of_append before rest
    have sigil := isAt_eq place '\x7b'
    simp only [parsePlaceholder, Syntax.parsePlaceholder, Cursor.at?, cut, Option.map_some] at sigil ⊢
    cases opens : Cursor.isAt '\x7b' ⟨byteLength before, rest⟩ with
    | true =>
      rw [sigil, if_pos (by rw [opens]), readPlaceholder_eq place opens, Option.filter_some,
        if_pos opens]
      rfl
    | false =>
      rw [sigil, if_neg (by rw [opens]; simp), Option.filter_some, if_neg (by simp [opens])]
      rfl

theorem trailing_eq {source : List Char} {after : Cursor} (place : Within source after) :
    (if after.offset < byteLength source then
        [Error.extraContent ⟨after.offset, byteLength source⟩] else []) =
      if after.rest = [] then [] else [Error.extraContent ⟨after.offset, after.endOffset⟩] := by
  obtain ⟨offset, rest⟩ := after
  rw [← place.endOffset_eq]
  cases rest with
  | nil => simp [Cursor.endOffset]
  | cons c rest =>
    have more : offset < Cursor.endOffset ⟨offset, c :: rest⟩ := by
      rw [Cursor.endOffset, Text.byteLength_cons]
      exact Nat.lt_add_of_pos_right (Nat.add_pos_left c.utf8Size_pos _)
    rw [if_pos more, if_neg (List.cons_ne_nil c rest)]

/-- Slices of the source, at offsets that only move on, read a template. -/
theorem parseTemplate_eq (source : List Char) :
    parseTemplate source = some (Syntax.parseTemplate source) := by
  have start := Within.start source
  have declarations := many_eq readDeclaration?_progresses readDeclaration?_eq start
  have next := start.trans (reaches_many readDeclaration?_progresses _)
  have body := next.trans (reaches_skipBlank _)
  have behind := body.trans (reaches_readBody _)
  have after := behind.trans (reaches_skipBlank _)
  have offset : (Cursor.start source).offset = 0 := rfl
  rw [offset] at declarations
  simp only [parseTemplate, declarations, Reading.stretch_next, skipBlank_eq next, readBody_eq body,
    skipBlank_eq behind, trailing_eq after, Option.bind_eq_bind, Option.bind_some]
  rfl

end sources

end Slicing

end Phrasebook.Syntax
