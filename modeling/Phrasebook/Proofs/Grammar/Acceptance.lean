import Phrasebook.Proofs.Grammar.Placeholder

namespace Phrasebook.Grammar

open Text (Cursor byteLength)
open Syntax

section values

theorem exists_operand {here : Cursor} {node : Syntax.Operand}
    (clean : (readOperand here).errors = []) (found : (readOperand here).value = some node) :
    ∃ operand : Operand, here.rest = operand.text ++ (readOperand here).next.rest := by
  unfold readOperand at clean found ⊢
  split
  · next bar =>
    rw [if_pos bar] at clean
    obtain ⟨quotation, split⟩ := exists_quotation bar clean
    exact ⟨.quoted quotation, split⟩
  · next noBar =>
    rw [if_neg noBar] at clean found
    split
    · next sigil =>
      rw [if_pos sigil] at clean
      obtain ⟨binding, split⟩ := exists_variable sigil clean
      exact ⟨.binding binding, split⟩
    · next noSigil =>
      rw [if_neg noSigil] at found
      cases found

theorem readOperand_next_of_none {here : Cursor} (absent : (readOperand here).value = none) :
    (readOperand here).next = here := by
  unfold readOperand at absent ⊢
  split
  · next bar =>
    rw [if_pos bar] at absent
    cases absent
  · next noBar =>
    rw [if_neg noBar] at absent
    split
    · next sigil =>
      rw [if_pos sigil] at absent
      cases absent
    · rfl

private theorem exists_optionValue {here : Cursor} (clean : (readOptionValue here).errors = []) :
    ∃ value : OptionValue, here.rest = value.text ++ (readOptionValue here).next.rest := by
  unfold readOptionValue at clean ⊢
  split
  · next bar =>
    rw [if_pos bar] at clean
    obtain ⟨quotation, split⟩ := exists_quotation bar clean
    exact ⟨.quoted quotation, split⟩
  · next noBar =>
    rw [if_neg noBar] at clean
    split
    · next sigil =>
      rw [if_pos sigil] at clean
      obtain ⟨binding, split⟩ := exists_variable sigil clean
      exact ⟨.binding binding, split⟩
    · next noSigil =>
      rw [if_neg noSigil] at clean
      have present : here.follows isNameChar = true := by
        by_cases named : here.follows isNameChar = true
        · exact named
        · simp [readWordToken, named] at clean
      obtain ⟨word, split⟩ := exists_word present
      exact ⟨.word word, split⟩

end values

section settings

theorem expect_clean {c : Char} {here : Cursor} (clean : (expect c here).errors = []) :
    here.rest = c :: (expect c here).next.rest := by
  unfold expect at clean ⊢
  split
  · next present => exact rest_eq_of_isAt present
  · next absent =>
    rw [if_neg absent] at clean
    cases clean

private theorem exists_setting {here : Cursor} {reading : Reading OptionEntry}
    (found : readOption? here = some reading) (clean : reading.errors = []) :
    ∃ (gap : Gap) (setting : Setting),
      here.rest = gap.text ++ (setting.text ++ reading.next.rest) := by
  simp only [readOption?] at found
  split at found
  · next present =>
    obtain ⟨blank, starts⟩ := Bool.and_eq_true_iff.mp present
    obtain rfl := Option.some.inj found
    obtain ⟨signClean, valueClean⟩ := List.append_eq_nil_iff.mp clean
    obtain ⟨gap, first⟩ := exists_gap blank
    obtain ⟨name, named⟩ := exists_name starts
    obtain ⟨before, padded⟩ := exists_blanks (readWord (skipBlank here)).next
    have sign := expect_clean signClean
    obtain ⟨after, spaced⟩ :=
      exists_blanks (expect '=' (skipBlank (readWord (skipBlank here)).next)).next
    obtain ⟨value, valued⟩ := exists_optionValue valueClean
    refine ⟨gap, ⟨name, before, after, value⟩, ?_⟩
    rw [first, named, padded, sign, spaced, valued]
    simp [Setting.text, Setting.opening]
  · cases found

private theorem exists_settings {here : Cursor}
    (clean : (many readOption? readOption?_progresses here).errors = []) :
    ∃ settings : Settings,
      here.rest = settings.text ++ (many readOption? readOption?_progresses here).next.rest := by
  fun_induction many readOption? readOption?_progresses here with
  | case1 here nothing => exact ⟨[], rfl⟩
  | case2 here first found more ih =>
    obtain ⟨firstClean, moreClean⟩ := List.append_eq_nil_iff.mp clean
    obtain ⟨gap, setting, passed⟩ := exists_setting found firstClean
    obtain ⟨settings, remaining⟩ := ih moreClean
    refine ⟨(gap, setting) :: settings, ?_⟩
    rw [passed, remaining]
    simp [Settings.text, more]

private theorem many_next_of_nil {step : Step α} {progresses : step.Progresses} {here : Cursor}
    (empty : (many step progresses here).value = []) : (many step progresses here).next = here := by
  fun_cases many step progresses here with
  | case1 nothing => rfl
  | case2 first found more =>
    rw [many_of_some progresses found] at empty
    cases empty

theorem exists_signature {here : Cursor} (clean : (readSignature here).errors = []) :
    ∃ signature : Signature,
      here.rest = signature.text ++ (readSignature here).next.rest ∧
      ((readSignature here).value.2 = [] → signature.settings = []) := by
  obtain ⟨nameClean, optionsClean⟩ := List.append_eq_nil_iff.mp clean
  obtain ⟨name, named⟩ := exists_name_of_readName nameClean
  by_cases empty : (readSignature here).value.2 = []
  · refine ⟨⟨name, []⟩, ?_, fun _ => rfl⟩
    have stays : (readSignature here).next = (readName here).next := many_next_of_nil empty
    rw [named, stays]
    simp [Signature.text, Settings.text]
  · obtain ⟨settings, passed⟩ := exists_settings optionsClean
    refine ⟨⟨name, settings⟩, ?_, fun listed => absurd listed empty⟩
    rw [named, passed]
    simp [Signature.text, readSignature]

end settings

section placeholders

private theorem eq_of_reaches {here later : Cursor} (reach : Cursor.Reaches here later)
    (same : here.offset = later.offset) : here = later := by
  obtain ⟨passed, rest, offset⟩ := reach
  cases passed with
  | nil =>
    obtain ⟨place, text⟩ := here
    obtain ⟨place', text'⟩ := later
    simp_all
  | cons c passed =>
    have size := c.utf8Size_pos
    rw [Text.byteLength_cons] at offset
    omega

/-- Closing a body reports nothing only where blanks and the brace follow. -/
theorem exists_closing {here after : Cursor} {body : PlaceholderBody} {errors : List Error}
    (clean : (closeBody here body errors after).errors = []) :
    errors = [] ∧ ∃ blanks : Blanks,
      after.rest = blanks.text ++ '}' :: (closeBody here body errors after).next.rest := by
  obtain ⟨beforeBrace, closing⟩ := List.append_eq_nil_iff.mp clean
  obtain ⟨own, extra⟩ := List.append_eq_nil_iff.mp beforeBrace
  refine ⟨own, ?_⟩
  obtain ⟨blanks, padded⟩ := exists_blanks after
  have brace := expect_clean closing
  have same : (skipBlank after).offset = (closingBrace (skipBlank after)).offset := by
    by_cases same : (skipBlank after).offset = (closingBrace (skipBlank after)).offset
    · exact same
    · simp [same] at extra
  have still := eq_of_reaches (reaches_closingBrace _) same
  refine ⟨blanks, ?_⟩
  rw [padded, still]
  exact congrArg (blanks.text ++ ·) brace

theorem exists_subject {here : Cursor} (opens : here.isAt '{' = true)
    (clean : (readOperand (skipBlank here.advance)).errors = []) :
    ∃ (before : Blanks) (operand : Option Operand) (gap : Blanks),
      here.rest = '{' :: (before.text ++ ((operand.map Operand.text).getD [] ++ (gap.text ++
        (skipBlank (readOperand (skipBlank here.advance)).next).rest))) ∧
      ((readOperand (skipBlank here.advance)).value = none → operand = none) := by
  obtain ⟨before, padded⟩ := exists_blanks here.advance
  obtain ⟨gap, spaced⟩ := exists_blanks (readOperand (skipBlank here.advance)).next
  cases found : (readOperand (skipBlank here.advance)).value with
  | none =>
    refine ⟨before, none, gap, ?_, fun _ => rfl⟩
    rw [rest_eq_of_isAt opens, padded, ← spaced, readOperand_next_of_none found]
    rfl
  | some node =>
    obtain ⟨operand, passed⟩ := exists_operand clean found
    refine ⟨before, some operand, gap, ?_, fun absent => nomatch absent⟩
    rw [rest_eq_of_isAt opens, padded, passed, ← spaced]
    rfl

/-- Markup that reports nothing has no operand, so there are only blanks before its sigil. -/
theorem exists_marker {here : Cursor} {c : Char} (opens : here.isAt '{' = true)
    (sigil : (skipBlank (readOperand (skipBlank here.advance)).next).isAt c = true)
    (operandClean : (readOperand (skipBlank here.advance)).value.toList.map
      (fun node => Error.extraContent node.span) ++
        (readOperand (skipBlank here.advance)).errors = [])
    (signatureClean : (readSignature
      (skipBlank (readOperand (skipBlank here.advance)).next).advance).errors = []) :
    ∃ (before : Blanks) (signature : Signature),
      here.rest = '{' :: (before.text ++ c :: (signature.text ++ (readSignature
        (skipBlank (readOperand (skipBlank here.advance)).next).advance).next.rest)) ∧
      ((readSignature (skipBlank (readOperand (skipBlank here.advance)).next).advance).value.2 = [] →
        signature.settings = []) := by
  obtain ⟨extra, errors⟩ := List.append_eq_nil_iff.mp operandClean
  obtain ⟨before, operand, gap, start, alone⟩ := exists_subject opens errors
  obtain ⟨signature, signed, bare⟩ := exists_signature signatureClean
  have absent : (readOperand (skipBlank here.advance)).value = none := by
    cases found : (readOperand (skipBlank here.advance)).value with
    | none => rfl
    | some node => simp [found] at extra
  refine ⟨before.append gap, signature, ?_, bare⟩
  rw [start, alone absent, rest_eq_of_isAt sigil, signed]
  simp

private theorem eq_nil_of_optionErrors {options : List OptionEntry} (clean : optionErrors options = []) :
    options = [] := by
  cases options with
  | nil => rfl
  | cons first more => simp [optionErrors, List.getLast?_cons] at clean

/-- A placeholder that is read without an error is derivable up to where reading ends. -/
theorem exists_placeholder {here : Cursor} (opens : here.isAt '{' = true)
    (clean : (readPlaceholder here).errors = []) :
    ∃ placeholder : Placeholder,
      here.rest = placeholder.text ++ (readPlaceholder here).next.rest := by
  simp only [readPlaceholder] at clean ⊢
  split at clean
  · next colon =>
    rw [if_pos colon]
    obtain ⟨errors, after, closing⟩ := exists_closing clean
    obtain ⟨operandClean, signatureClean⟩ := List.append_eq_nil_iff.mp errors
    obtain ⟨before, operand, gap, start, -⟩ := exists_subject opens operandClean
    obtain ⟨signature, signed, -⟩ := exists_signature signatureClean
    refine ⟨⟨before, .call operand gap signature, after⟩, ?_⟩
    rw [start, rest_eq_of_isAt colon, signed, closing]
    simp [Placeholder.text, Content.text, Content.subject]
  · next noColon =>
    rw [if_neg noColon]
    split at clean
    · next plus =>
      rw [if_pos plus]
      obtain ⟨errors, after, closing⟩ := exists_closing clean
      obtain ⟨operandClean, signatureClean⟩ := List.append_eq_nil_iff.mp errors
      obtain ⟨before, signature, start, -⟩ := exists_marker opens plus operandClean signatureClean
      refine ⟨⟨before, .opening signature, after⟩, ?_⟩
      rw [start, closing]
      simp [Placeholder.text, Content.text]
    · next noPlus =>
      rw [if_neg noPlus]
      split at clean
      · next minus =>
        rw [if_pos minus]
        obtain ⟨errors, after, closing⟩ := exists_closing clean
        obtain ⟨ownErrors, optionsClean⟩ := List.append_eq_nil_iff.mp errors
        obtain ⟨operandClean, signatureClean⟩ := List.append_eq_nil_iff.mp ownErrors
        obtain ⟨before, signature, start, bare⟩ :=
          exists_marker opens minus operandClean signatureClean
        refine ⟨⟨before, .closing signature.name, after⟩, ?_⟩
        rw [start, closing, Signature.text, bare (eq_nil_of_optionErrors optionsClean)]
        simp [Placeholder.text, Content.text, Settings.text]
      · next noMinus =>
        rw [if_neg noMinus]
        obtain ⟨before, padded⟩ := exists_blanks here.advance
        have start := rest_eq_of_isAt opens
        split at clean
        · next token found =>
          obtain ⟨errors, after, closing⟩ := exists_closing clean
          obtain ⟨operand, passed⟩ := exists_operand errors found
          refine ⟨⟨before, .plain operand, after⟩, ?_⟩
          rw [start, padded, passed, closing]
          simp [Placeholder.text, Content.text]
        · next token found =>
          obtain ⟨errors, after, closing⟩ := exists_closing clean
          obtain ⟨operand, passed⟩ := exists_operand errors found
          refine ⟨⟨before, .plain operand, after⟩, ?_⟩
          rw [start, padded, passed, closing]
          simp [Placeholder.text, Content.text]
        · cases clean

theorem slice?_middle (before text rest : List Char) :
    Text.slice? (before ++ (text ++ rest)) (byteLength before) (byteLength before + byteLength text) =
      some text := by
  have stop := Text.splitAtOffset?_append (before ++ text) rest
  rw [Text.byteLength_append, List.append_assoc] at stop
  simp [Text.slice?, stop, Text.splitAtOffset?_append]

theorem parsePlaceholder_brace (before after : List Char) :
    parsePlaceholder (before ++ '{' :: after) (byteLength before) =
      ((readPlaceholder ⟨byteLength before, '{' :: after⟩).value,
        (readPlaceholder ⟨byteLength before, '{' :: after⟩).errors) := by
  have opens : Cursor.isAt '{' ⟨byteLength before, '{' :: after⟩ = true := rfl
  simp [parsePlaceholder, Cursor.at?, Text.splitAtOffset?_append, Option.filter, opens]

/-- Wherever a brace opens in a source, reading a placeholder from it reports nothing exactly if
some stretch of the source from there on is derivable. In that case the tree that is read is the one
of the derivation, and its span covers exactly that stretch. -/
theorem parsePlaceholder_exact (before after : List Char) :
    let source := before ++ '{' :: after
    let start := byteLength before
    ((parsePlaceholder source start).2 = [] ↔
      ∃ placeholder : Placeholder, placeholder.text <+: '{' :: after) ∧
    ∀ placeholder : Placeholder, placeholder.text <+: '{' :: after →
      parsePlaceholder source start = (placeholder.node start, []) ∧
      Text.slice? source (placeholder.node start).span.start (placeholder.node start).span.stop =
        some placeholder.text := by
  intro source start
  have reads (placeholder : Placeholder) (derived : placeholder.text <+: '{' :: after) :
      parsePlaceholder source start = (placeholder.node start, []) ∧
      Text.slice? source (placeholder.node start).span.start (placeholder.node start).span.stop =
        some placeholder.text := by
    obtain ⟨rest, whole⟩ := derived
    constructor
    · simp only [source, start]
      rw [parsePlaceholder_brace, ← whole, readPlaceholder_append]
    · simp only [source, start]
      rw [← whole]
      exact slice?_middle before placeholder.text rest
  refine ⟨⟨?_, ?_⟩, reads⟩
  · intro clean
    simp only [source, start, parsePlaceholder_brace] at clean
    obtain ⟨placeholder, whole⟩ := exists_placeholder (by simp) clean
    exact ⟨placeholder, _, whole.symm⟩
  · rintro ⟨placeholder, derived⟩
    rw [(reads placeholder derived).1]

/-- Behind a letter of two bytes, a call with one option, whose value is an escaped bar. -/
theorem parsePlaceholder_quoted_bar :
    let source := "é\x7b:f a=|\\||\x7d!".toList
    let option : OptionEntry := ⟨⟨6, 12⟩, "a", .quoted ⟨⟨8, 12⟩, "|"⟩⟩
    parsePlaceholder source 2 = (⟨⟨2, 13⟩, .call ⟨⟨3, 12⟩, none, "f", [option]⟩⟩, []) ∧
      Text.slice? source 2 13 = some "\x7b:f a=|\\||\x7d".toList := by
  intro source option
  let empty : Blanks := ⟨[], by simp⟩
  let gap : Gap := ⟨⟨[' '], by simp [isBlank]⟩, by simp⟩
  let setting : Setting :=
    ⟨⟨'a', [], by decide, by simp⟩, empty, empty, .quoted ⟨[.escape '|' (by simp)]⟩⟩
  let placeholder : Placeholder :=
    ⟨empty, .call none empty ⟨⟨'f', [], by decide, by simp⟩, [(gap, setting)]⟩, empty⟩
  have whole : ['é'] ++ '{' :: ":f a=|\\||\x7d!".toList = source := by decide
  have start : byteLength ['é'] = 2 := by decide
  have tree : placeholder.node 2 = ⟨⟨2, 13⟩, .call ⟨⟨3, 12⟩, none, "f", [option]⟩⟩ := by decide
  have derived : placeholder.text = "\x7b:f a=|\\||\x7d".toList := by decide
  have begins : placeholder.text <+: '{' :: ":f a=|\\||\x7d!".toList := by decide
  have reads := (parsePlaceholder_exact ['é'] ":f a=|\\||\x7d!".toList).2 placeholder begins
  rw [whole, start, tree, derived] at reads
  exact reads

end placeholders

end Phrasebook.Grammar
