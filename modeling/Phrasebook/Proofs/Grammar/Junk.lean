import Phrasebook.Proofs.Grammar.Closing

namespace Phrasebook.Syntax

open Text (Cursor byteLength)
open Text.Cursor (Reaches Within)
open Outline (Row)

section quotations

/-- What is read from a bar of the source on. -/
def Token.IsQuotation (source : List Char) (token : Token) : Prop :=
  ∃ here, Within source here ∧ here.isAt '|' = true ∧ (readQuoted here).value = token

/-- The span is that of a backslash of the source, between two offsets. -/
structure Span.IsBackslash (source : List Char) (first last : Nat) (span : Span) : Prop where
  slice : Text.slice? source span.start span.stop = some ['\\']
  single : span.stop = span.start + 1
  after : first ≤ span.start
  before : span.stop ≤ last

private theorem Span.IsBackslash.start_le {source : List Char} {first middle last : Nat} {span : Span}
    (inside : span.IsBackslash source middle last) (earlier : first ≤ middle) :
    span.IsBackslash source first last :=
  { inside with after := Nat.le_trans earlier inside.after }

def Operand.quotations : Operand → List Token
  | .quoted token => [token]
  | .variable _ => []

def OptionValue.quotations : OptionValue → List Token
  | .quoted token => [token]
  | .word _ => []
  | .variable _ => []

/-- The quotations among the values of options. -/
def quotedValues (options : List OptionEntry) : List Token :=
  options.flatMap fun entry => entry.value.quotations

def PlaceholderBody.quotations : PlaceholderBody → List Token
  | .quoted token => [token]
  | .variable _ => []
  | .call node => node.operand.toList.flatMap Operand.quotations ++ quotedValues node.options
  | .opening marker => quotedValues marker.options
  | .closing marker => quotedValues marker.options
  | .junk _ => []

/-- The token lies in a stretch that is reported as extra content. -/
def Token.Dropped (errors : List Error) (token : Token) : Prop :=
  ∃ extra, .extraContent extra ∈ errors ∧
    extra.start ≤ token.span.start ∧ token.span.stop ≤ extra.stop

theorem Token.Dropped.mono {errors others : List Error} {token : Token}
    (dropped : token.Dropped errors) (subset : errors ⊆ others) : token.Dropped others := by
  obtain ⟨extra, member, covers⟩ := dropped
  exact ⟨extra, subset member, covers⟩

/-- Whatever is malformed is a backslash in a quotation, and that is kept or reported as extra. -/
def Traced (source : List Char) (kept : List Token) (errors : List Error) : Prop :=
  ∀ span, .malformed span ∈ errors → ∃ token, token.IsQuotation source ∧
    span.IsBackslash source (token.span.start + 1) token.span.stop ∧
    (token ∈ kept ∨ token.Dropped errors)

namespace Traced

variable {source : List Char} {kept others : List Token} {errors more : List Error}

theorem none (free : ∀ span, .malformed span ∉ errors) : Traced source [] errors :=
  fun span member => absurd member (free span)

theorem append (first : Traced source kept errors) (second : Traced source others more) :
    Traced source (kept ++ others) (errors ++ more) := by
  intro span member
  rcases List.mem_append.mp member with early | late
  · obtain ⟨token, quotation, inside, place⟩ := first span early
    refine ⟨token, quotation, inside, place.imp (List.mem_append_left _) ?_⟩
    exact fun dropped => dropped.mono (List.subset_append_left ..)
  · obtain ⟨token, quotation, inside, place⟩ := second span late
    refine ⟨token, quotation, inside, place.imp (List.mem_append_right _) ?_⟩
    exact fun dropped => dropped.mono (List.subset_append_right ..)

theorem drop (traced : Traced source (kept ++ others) errors)
    (reported : ∀ token ∈ others, token.Dropped errors) : Traced source kept errors := by
  intro span member
  obtain ⟨token, quotation, inside, place⟩ := traced span member
  refine ⟨token, quotation, inside, ?_⟩
  rcases place with present | dropped
  · exact (List.mem_append.mp present).imp_right (reported token)
  · exact .inr dropped

end Traced

variable {source : List Char} {here : Cursor}

private theorem isBackslash_of_quotedText {offset : Nat} {text : List Char} {span : Span}
    (place : Within source ⟨offset, text⟩) (member : .malformed span ∈ (quotedText offset text).errors) :
    span.IsBackslash source offset (quotedText offset text).next.offset := by
  fun_induction quotedText offset text with
  | case1 offset => simp at member
  | case2 offset rest => simp at member
  | case3 offset rest ih =>
    exact (ih place.cons.cons member).start_le (Nat.le_add_right ..)
  | case4 offset rest ih =>
    exact (ih place.cons.cons member).start_le (Nat.le_add_right ..)
  | case5 offset rest _ _ more ih =>
    rcases List.mem_cons.mp member with own | later
    · obtain rfl := Error.malformed.inj own
      have slice := place.slice?_of_isAt (c := '\\') rfl
      exact ⟨slice, rfl, Nat.le_refl _, (reaches_quotedText (offset + 1) rest).offset_le⟩
    · exact (ih place.cons later).start_le (Nat.le_add_right ..)
  | case6 offset c rest _ _ _ _ ih =>
    exact (ih place.cons member).start_le (Nat.le_add_right ..)

theorem traced_readQuoted (place : Within source here) (bar : here.isAt '|' = true) :
    Traced source [(readQuoted here).value] (readQuoted here).errors := by
  intro span member
  have behind : Within source ⟨here.offset + 1, here.advance.rest⟩ := by
    have advanced := place.trans (Text.Cursor.reaches_advance here)
    have size : here.advance.offset = here.offset + 1 := Grammar.advance_offset_of_isAt bar
    rwa [← size]
  exact ⟨_, ⟨here, place, bar, rfl⟩, isBackslash_of_quotedText behind member,
    .inl (List.mem_singleton_self _)⟩

theorem not_malformed_readName (here : Cursor) (span : Span) :
    .malformed span ∉ (readName here).errors := by
  unfold readName
  split <;> simp [readWord]

theorem traced_readOperand (place : Within source here) :
    Traced source ((readOperand here).value.toList.flatMap Operand.quotations)
      (readOperand here).errors := by
  unfold readOperand
  split
  · next bar => exact traced_readQuoted place bar
  · split
    · exact .none (not_malformed_readName here.advance)
    · exact .none (by simp)

theorem traced_readOptionValue (place : Within source here) :
    Traced source (readOptionValue here).value.quotations (readOptionValue here).errors := by
  unfold readOptionValue
  split
  · next bar => exact traced_readQuoted place bar
  · split
    · exact .none (not_malformed_readName here.advance)
    · refine .none fun span => ?_
      simp only [readWordToken, Reading.map_errors]
      split <;> simp

theorem not_malformed_expect (c : Char) (here : Cursor) (span : Span) :
    .malformed span ∉ (expect c here).errors := by
  unfold expect
  split <;> simp

theorem traced_readOption? {reading : Reading OptionEntry} (place : Within source here)
    (found : readOption? here = some reading) :
    Traced source reading.value.value.quotations reading.errors := by
  simp only [readOption?] at found
  split at found
  · obtain rfl := Option.some.inj found
    have behind := place.trans <| (reaches_skipBlank here).trans <|
      (reaches_readWord (skipBlank here)).trans <| (reaches_skipBlank _).trans <|
        (reaches_expect '=' _).trans (reaches_skipBlank _)
    exact (Traced.none (not_malformed_expect '=' _)).append (traced_readOptionValue behind)
  · cases found

/-- The induction is on the options; each starts at a place of the source, behind those before it. -/
theorem traced_options (place : Within source here) :
    Traced source (quotedValues (many readOption? readOption?_progresses here).value)
      (many readOption? readOption?_progresses here).errors := by
  fun_induction many readOption? readOption?_progresses here with
  | case1 here nothing => exact .none (by simp)
  | case2 here reading found more ih =>
    have option := traced_readOption? place found
    exact option.append (ih (place.trans (readOption?_progresses here reading found).1))

theorem traced_readSignature (place : Within source here) :
    Traced source (quotedValues (readSignature here).value.2) (readSignature here).errors :=
  (Traced.none (not_malformed_readName here)).append
    (traced_options (place.trans (reaches_readName here)))

end quotations

section dropped

private theorem Outline.Row.inside_hull {source : List Char} {first last : Nat} {nodes : List Outline}
    {earliest latest : Outline} (row : Row source first last nodes)
    (head : nodes.head? = some earliest) (foot : nodes.getLast? = some latest) :
    ∀ node ∈ nodes, earliest.span.start ≤ node.span.start ∧ node.span.stop ≤ latest.span.stop := by
  intro node member
  constructor
  · cases row with
    | nil ordered => cases head
    | cons after placed rest =>
      obtain rfl := Option.some.inj head
      rcases List.mem_cons.mp member with rfl | later
      · exact Nat.le_refl _
      · exact Nat.le_trans placed.fits.ordered (rest.inside node later).1
  · obtain ⟨before, rfl⟩ := List.getLast?_eq_some_iff.mp foot
    exact (row.to_last.1.inside node member).2

private theorem outline_of_mem_quotations {value : OptionValue} {token : Token}
    (quoted : token ∈ value.quotations) : value.outline = token.outline := by
  cases value with
  | quoted other => rw [List.mem_singleton.mp quoted]; rfl
  | _ => cases quoted

private theorem not_malformed_optionErrors (options : List OptionEntry) (span : Span) :
    .malformed span ∉ optionErrors options := by
  unfold optionErrors
  split <;> simp

/-- The options of a closing marker are reported with all their quotations. -/
theorem dropped_options {source : List Char} {first last : Nat} {options : List OptionEntry}
    (row : Row source first last (options.map OptionEntry.outline)) :
    ∀ token ∈ quotedValues options, token.Dropped (optionErrors options) := by
  intro token member
  obtain ⟨entry, listed, quoted⟩ := List.mem_flatMap.mp member
  have some_option : options ≠ [] := List.ne_nil_of_mem listed
  have head := List.head?_eq_some_head some_option
  have foot := List.getLast?_eq_some_getLast some_option
  have reported : optionErrors options = [.extraContent
      ⟨(options.head some_option).span.start, (options.getLast some_option).span.stop⟩] := by
    simp only [optionErrors, head, foot]
  have outlined := List.mem_map_of_mem (f := OptionEntry.outline) listed
  have around := row.inside_hull (by rw [List.head?_map, head]; rfl)
    (by rw [List.getLast?_map, foot]; rfl) _ outlined
  have inner : entry.span.start ≤ token.span.start ∧ token.span.stop ≤ entry.span.stop := by
    cases row.placed _ outlined with
    | node _ _ inside =>
      have value := inside _ (List.mem_singleton_self _)
      rwa [outline_of_mem_quotations quoted] at value
  refine ⟨_, reported ▸ List.mem_singleton_self _, ?_, ?_⟩
  · exact Nat.le_trans around.1 inner.1
  · exact Nat.le_trans inner.2 around.2

private theorem Traced.options {source : List Char} {first last : Nat} {options : List OptionEntry}
    {errors : List Error} (traced : Traced source (quotedValues options) errors)
    (row : Row source first last (options.map OptionEntry.outline)) :
    Traced source [] (errors ++ optionErrors options) := by
  have whole := traced.append (.none (not_malformed_optionErrors options))
  rw [List.append_nil] at whole
  refine Traced.drop whole ?_
  exact fun token member => (dropped_options row token member).mono (List.subset_append_right ..)

end dropped

section endings

variable {source : List Char} {here : Cursor}

theorem mem_skipWhile {c : Char} {test : Char → Bool} (fails : test c = false) (here : Cursor) :
    c ∈ (here.skipWhile test).rest ↔ c ∈ here.rest := by
  obtain ⟨run, passes, split, -⟩ := Grammar.skipWhile_split test here
  have absent : c ∉ run := by
    intro member
    simp [passes c member] at fails
  rw [split, List.mem_append]
  simp [absent]

private theorem expect_closingBrace (place : Within source here) :
    (expect '}' (closingBrace here)).errors =
      if '}' ∈ here.rest then [] else [.missingChar (byteLength source) '}'] := by
  have same : '}' ∈ (closingBrace here).rest ↔ '}' ∈ here.rest := mem_skipWhile rfl here
  rcases closingBrace_found here with found | ended
  · have member : '}' ∈ here.rest := by
      rw [← same, Grammar.rest_eq_of_isAt found]
      exact List.mem_cons_self
    rw [if_pos member, expect, if_pos found]
  · have absent : '}' ∉ here.rest := by
      rw [← same, ended]
      exact List.not_mem_nil
    have missing : (closingBrace here).isAt '}' = false := by
      simp [Cursor.isAt, Cursor.follows, ended]
    have offset := Within.offset_of_rest_nil (place.trans (reaches_closingBrace here)) ended
    simp [expect, missing, offset, absent]

private theorem mem_junk_first (start : Cursor) :
    '}' ∈ (if start.isAt '}' then start else start.advance).rest ↔ '}' ∈ start.rest := by
  split
  · rfl
  · next other =>
    obtain ⟨offset, rest⟩ := start
    cases rest with
    | nil => rfl
    | cons c rest =>
      have different : c ≠ '}' := by simpa using other
      simp [different.symm]

/-- Junk is reported with its span, and the brace if none follows. -/
theorem exists_junk (here : Cursor) {start : Cursor} (place : Within source start) :
    ∃ token, (closeJunk here start).value.body = .junk token ∧
      (closeJunk here start).errors = .malformed token.span ::
        if '}' ∈ start.rest then [] else [.missingChar (byteLength source) '}'] := by
  have first := place.trans ((reaches_junk_first start).trans (reaches_skipBlank _))
  have same : '}' ∈ (skipBlank (if start.isAt '}' then start else start.advance)).rest ↔
      '}' ∈ start.rest := (mem_skipWhile rfl _).trans (mem_junk_first start)
  refine ⟨_, rfl, ?_⟩
  simp only [closeJunk, expect_closingBrace first, same]

end endings

section placeholders

variable {source : List Char} {here after : Cursor}

theorem traced_closeBody {body : PlaceholderBody} {errors : List Error}
    (traced : Traced source body.quotations errors) :
    Traced source (closeBody here body errors after).value.body.quotations
      (closeBody here body errors after).errors := by
  have extra : Traced source [] (if (skipBlank after).offset = (closingBrace (skipBlank after)).offset
      then [] else [.extraContent ⟨(skipBlank after).offset, (closingBrace (skipBlank after)).offset⟩]) := by
    refine .none fun span => ?_
    split <;> simp
  have closed : Traced source [] (expect '}' (closingBrace (skipBlank after))).errors :=
    .none (not_malformed_expect '}' _)
  have whole := (traced.append extra).append closed
  rwa [List.append_nil, List.append_nil] at whole

theorem traced_operand (place : Within source here) :
    Traced source [] ((readOperand here).value.toList.map (fun node => .extraContent node.span) ++
      (readOperand here).errors) := by
  have extra : Traced source []
      ((readOperand here).value.toList.map fun node => .extraContent node.span) := .none (by simp)
  refine Traced.drop (extra.append (traced_readOperand place)) ?_
  intro token member
  obtain ⟨node, found, quoted⟩ := List.mem_flatMap.mp member
  have same : node.span = token.span := by
    cases node with
    | quoted other => rw [List.mem_singleton.mp quoted]; rfl
    | _ => cases quoted
  refine ⟨node.span, List.mem_append_left _ (List.mem_map_of_mem found), ?_⟩
  rw [same]
  exact ⟨Nat.le_refl _, Nat.le_refl _⟩

/-- Either junk is read, and it is reported, or what is malformed is traced. -/
theorem readPlaceholder_junk_or_traced (place : Within source here) :
    (∃ token, (readPlaceholder here).value.body = .junk token ∧
      (readPlaceholder here).errors = .malformed token.span ::
        if '}' ∈ here.advance.rest then [] else [.missingChar (byteLength source) '}']) ∨
    ((∀ token, (readPlaceholder here).value.body ≠ .junk token) ∧
      Traced source (readPlaceholder here).value.body.quotations (readPlaceholder here).errors) := by
  have inside := place.trans <|
    (Text.Cursor.reaches_advance here).trans (reaches_skipBlank here.advance)
  have operand := traced_readOperand inside
  have alone := traced_operand inside
  have behind := place.trans (reaches_sigil here)
  have sigil := behind.trans (Text.Cursor.reaches_advance _)
  have signature := traced_readSignature sigil
  have row := (placed_readSignature sigil).row
  unfold readPlaceholder
  simp only
  split
  · exact .inr ⟨nofun, traced_closeBody (operand.append signature)⟩
  · split
    · exact .inr ⟨nofun, traced_closeBody (alone.append signature)⟩
    · split
      · exact .inr ⟨nofun, traced_closeBody ((alone.append signature).options row)⟩
      · split
        · next token found =>
          rw [found] at operand
          exact .inr ⟨nofun, traced_closeBody operand⟩
        · next token found =>
          rw [found] at operand
          exact .inr ⟨nofun, traced_closeBody operand⟩
        · next found =>
          -- Only blanks were passed, so the closing brace is still to come if there is one.
          have still := Grammar.readOperand_next_of_none found
          have same : '}' ∈ (skipBlank (readOperand (skipBlank here.advance)).next).rest ↔
              '}' ∈ here.advance.rest := by
            rw [still]
            exact (mem_skipWhile rfl _).trans (mem_skipWhile rfl _)
          have junk := exists_junk here behind
          simp only [same] at junk
          exact .inl junk

end placeholders

section junk

variable {source : List Char} {here : Cursor}

private theorem slice?_of_junk (place : Within source here) {token : Token}
    (junk : (readPlaceholder here).value.body = .junk token) :
    Text.slice? source token.span.start token.span.stop = some token.text.toList := by
  have placed := (placed_readPlaceholder place).row.placed _ (List.mem_singleton_self _)
  cases placed with
  | node _ _ _ _ inner =>
    have body := inner _ (List.mem_singleton_self _)
    rw [junk] at body
    cases body with
    | node _ kept => exact kept _ rfl

/-- A brace opens at the offset, and none closes behind it. -/
def Unclosed (source : List Char) (offset : Nat) : Prop :=
  ∃ before after, source = before ++ '{' :: after ∧ byteLength before = offset ∧ '}' ∉ after

private theorem unclosed_append_iff {before after : List Char} :
    Unclosed (before ++ '{' :: after) (byteLength before) ↔ '}' ∉ after := by
  constructor
  · rintro ⟨before', after', split, size, absent⟩
    have cut := Text.splitAtOffset?_append before ('{' :: after)
    have cut' := Text.splitAtOffset?_append before' ('{' :: after')
    rw [← split, size, cut] at cut'
    obtain ⟨-, rfl⟩ := (Prod.mk.inj (Option.some.inj cut')).imp_right (List.cons.inj · |>.2)
    exact absent
  · exact fun absent => ⟨before, after, rfl, rfl, absent⟩

/-- Junk is reported as malformed, once and with its span, and as unclosed if it is, and nothing else is
reported. It is the text of its span, or empty where no brace opens. -/
structure Token.JunkAt (source : List Char) (start : Nat) (errors : List Error) (token : Token) :
    Prop where
  closed : ¬ Unclosed source start → errors = [.malformed token.span]
  unclosed : Unclosed source start →
    errors = [.malformed token.span, .missingChar (byteLength source) '}']
  kept : Opens source start →
    Text.slice? source token.span.start token.span.stop = some token.text.toList
  empty : ¬ Opens source start → token.text = "" ∧ token.span.start = token.span.stop

private theorem junkAt_brace {before after : List Char} {errors : List Error} {token : Token}
    (slice : Text.slice? (before ++ '{' :: after) token.span.start token.span.stop =
      some token.text.toList)
    (reported : errors = .malformed token.span ::
      if '}' ∈ after then [] else [.missingChar (byteLength (before ++ '{' :: after)) '}']) :
    token.JunkAt (before ++ '{' :: after) (byteLength before) errors := by
  constructor
  · intro closed
    rw [unclosed_append_iff, Decidable.not_not] at closed
    rw [reported, if_pos closed]
  · intro unclosed
    rw [reported, if_neg (unclosed_append_iff.mp unclosed)]
  · exact fun _ => slice
  · exact fun closed => absurd ⟨before, after, rfl, rfl⟩ closed

/-- From any offset of any source, junk comes with the error of its span, and at most with the missing
brace. In what is no junk, only backslashes in quotations are malformed. -/
theorem parsePlaceholder_malformed (source : List Char) (start : Nat) :
    let parsed := parsePlaceholder source start
    (∀ token, parsed.1.body = .junk token → token.JunkAt source start parsed.2) ∧
    ((∀ token, parsed.1.body ≠ .junk token) →
      Traced source parsed.1.body.quotations parsed.2) := by
  intro parsed
  by_cases opens : Opens source start
  · obtain ⟨before, after, rfl, rfl⟩ := opens
    have place := Within.of_append before ('{' :: after)
    have reads := Grammar.parsePlaceholder_brace before after
    simp only [parsed, reads]
    rcases readPlaceholder_junk_or_traced place with ⟨token, junk, errors⟩ | ⟨proper, traced⟩
    · refine ⟨fun other same => ?_, fun proper => absurd junk (proper token)⟩
      obtain rfl := PlaceholderBody.junk.inj (junk.symm.trans same)
      exact junkAt_brace (slice?_of_junk place junk) errors
    · exact ⟨fun token junk => absurd junk (proper token), fun _ => traced⟩
  · have empty := parsePlaceholder_of_not_opens opens
    constructor
    · intro token junk
      simp only [parsed, empty] at junk ⊢
      obtain rfl := PlaceholderBody.junk.inj junk
      have closed : ¬ Unclosed source start := by
        rintro ⟨before, after, split, size, -⟩
        exact opens ⟨before, after, split, size⟩
      exact ⟨fun _ => rfl, (absurd · closed), (absurd · opens), fun _ => ⟨rfl, rfl⟩⟩
    · intro proper
      exact absurd (congrArg (fun node => node.1.body) empty) (proper _)

/-- Junk that nothing closes, behind a letter of two bytes, and a closing marker with an option. -/
theorem parsePlaceholder_malformed_dropped :
    let unclosed := "é\x7b^ x".toList
    let marker := "\x7b-f a=|\\y|\x7d".toList
    (parsePlaceholder unclosed 2).1.body = .junk ⟨⟨3, 6⟩, "^ x"⟩ ∧
      Token.JunkAt unclosed 2 (parsePlaceholder unclosed 2).2 ⟨⟨3, 6⟩, "^ x"⟩ ∧
    (parsePlaceholder marker 0).2 = [.malformed ⟨7, 8⟩, .extraContent ⟨4, 10⟩] ∧
      Traced marker [] [.malformed ⟨7, 8⟩, .extraContent ⟨4, 10⟩] := by
  intro unclosed marker
  have junk : (parsePlaceholder unclosed 2).1.body = .junk ⟨⟨3, 6⟩, "^ x"⟩ := by decide +kernel
  have closing : (parsePlaceholder marker 0).1.body = .closing ⟨⟨1, 10⟩, "f", []⟩ := by
    decide +kernel
  have errors : (parsePlaceholder marker 0).2 = [.malformed ⟨7, 8⟩, .extraContent ⟨4, 10⟩] := by
    decide +kernel
  have traced := (parsePlaceholder_malformed marker 0).2 (by simp [closing])
  rw [errors, closing] at traced
  exact ⟨junk, (parsePlaceholder_malformed unclosed 2).1 _ junk, errors, traced⟩

end junk

end Phrasebook.Syntax
