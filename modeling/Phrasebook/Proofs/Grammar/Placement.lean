import Phrasebook.Proofs.Grammar.Slicing

/-!
Where reading puts nodes and errors. From a place of the source every reader goes on to a later place,
and the nodes that it reads lie between the two, one after the other; its errors point into the
source. So the trees of placeholders and templates are placed in their source, however it is formed.
-/

namespace Phrasebook.Syntax

open Text (Cursor byteLength)
open Text.Cursor (Reaches Within)
open Outline (Placed Row)

section readings

/-- The errors point into the source. -/
def ErrorsFit (source : List Char) (errors : List Error) : Prop :=
  ∀ error ∈ errors, error.span.Fits source

namespace ErrorsFit

variable {source : List Char} {errors others : List Error} {error : Error}

theorem nil : ErrorsFit source [] := List.forall_mem_nil _

theorem cons (fits : error.span.Fits source) (rest : ErrorsFit source errors) :
    ErrorsFit source (error :: errors) := List.forall_mem_cons.mpr ⟨fits, rest⟩

theorem single (fits : error.span.Fits source) : ErrorsFit source [error] := .cons fits .nil

theorem append (first : ErrorsFit source errors) (second : ErrorsFit source others) :
    ErrorsFit source (errors ++ others) := List.forall_mem_append.mpr ⟨first, second⟩

theorem ite {condition : Prop} [Decidable condition] (first : ErrorsFit source errors)
    (second : ErrorsFit source others) :
    ErrorsFit source (if condition then errors else others) := by
  split
  · exact first
  · exact second

end ErrorsFit

/-- What was read from a place of the source lies between that place and the next one, and its errors
point into the source. -/
structure Reading.Placed (source : List Char) (here : Cursor) (nodes : α → List Outline)
    (reading : Reading α) : Prop where
  row : Row source here.offset reading.next.offset (nodes reading.value)
  errors : ErrorsFit source reading.errors

theorem Reading.Placed.after {source : List Char} {here later : Cursor} {reading : Reading α}
    {nodes : α → List Outline} (placed : reading.Placed source later nodes)
    (reach : Reaches here later) : reading.Placed source here nodes :=
  ⟨placed.row.start_le reach.offset_le, placed.errors⟩

theorem Reading.Placed.map {source : List Char} {here : Cursor} {nodes : α → List Outline}
    {reading : Reading α} (placed : reading.Placed source here nodes) {f : α → β}
    {nodes' : β → List Outline} (same : ∀ value, nodes' (f value) = nodes value) :
    (reading.map f).Placed source here nodes' where
  row := by simpa [same] using placed.row
  errors := placed.errors

/-- What a repeated step reads is placed if what each step reads is. The induction is on the steps;
each starts at a place of the source, since those before it lead there. -/
theorem placed_many {source : List Char} {step : Step α} (progresses : step.Progresses)
    {outline : α → Outline}
    (each : ∀ {here reading}, Within source here → step here = some reading →
      reading.Placed source here fun value => [outline value])
    {here : Cursor} (place : Within source here) :
    (many step progresses here).Placed source here (List.map outline) := by
  fun_induction many step progresses here with
  | case1 here nothing => exact ⟨.nil (Nat.le_refl _), .nil⟩
  | case2 here reading found more ih =>
    have head := each place found
    have tail := ih (place.trans (progresses here reading found).1)
    exact ⟨head.row.append tail.row, .append head.errors tail.errors⟩

end readings

section tokens

variable {source : List Char} {here : Cursor}

theorem fits_expect (c : Char) (place : Within source here) :
    ErrorsFit source (expect c here).errors := by
  unfold expect
  split
  · exact .nil
  · exact .single (.of_within place)

theorem placed_token {token : Token} {later : Cursor} (place : Within source here)
    (reach : Reaches here later) (span : token.span = ⟨here.offset, later.offset⟩) :
    Row source here.offset later.offset [token.outline] := by
  have fits := Span.Fits.of_reaches place reach
  refine .single (.leaf (span ▸ fits)) ?_ ?_ <;> simp [Token.outline, span]

theorem placed_readVariable (place : Within source here) :
    (readVariable here).Placed source here fun token => [token.outline] where
  row := placed_token place (reaches_readVariable here) rfl
  errors := by
    have after : Within source here.advance := place.trans (Text.Cursor.reaches_advance here)
    simp only [readVariable, readName]
    split
    · exact .nil
    · exact .single (.of_within after)

theorem fits_backslash {offset : Nat} {rest : List Char} (place : Within source ⟨offset, '\\' :: rest⟩) :
    (Error.malformed ⟨offset, offset + 1⟩).span.Fits source :=
  .of_reaches place (Text.Cursor.reaches_advance ⟨offset, '\\' :: rest⟩)

theorem fits_quotedText {offset : Nat} {text : List Char} (place : Within source ⟨offset, text⟩) :
    ErrorsFit source (quotedText offset text).errors := by
  fun_induction quotedText offset text with
  | case1 offset => exact .single (.of_within place)
  | case2 offset rest => exact .nil
  | case3 offset rest ih => exact ih place.cons.cons
  | case4 offset rest ih => exact ih place.cons.cons
  | case5 offset rest _ _ more ih =>
    exact .cons (fits_backslash place) (ih place.cons)
  | case6 offset c rest _ _ _ _ ih => exact ih place.cons

theorem placed_readQuoted (place : Within source here) (atBar : here.isAt '|' = true) :
    (readQuoted here).Placed source here fun token => [token.outline] where
  row := placed_token place (advances_readQuoted atBar).1 rfl
  errors := by
    obtain ⟨offset, rest⟩ := here
    cases rest with
    | nil => cases atBar
    | cons c rest =>
      obtain rfl : c = '|' := by simpa using atBar
      exact fits_quotedText place.cons

theorem placed_readWordToken (place : Within source here) :
    (readWordToken here).Placed source here fun token => [token.keptOutline] where
  row := by
    have word := Placed.kept place (reaches_readWord here)
    have passed : here.upTo (readWord here).next = here.rest.takeWhile isNameChar :=
      Text.Cursor.upTo_eq_of_rest_eq List.takeWhile_append_dropWhile.symm
    rw [passed] at word
    exact .single word (Nat.le_refl _) (Nat.le_refl _)
  errors := .ite .nil (.single (.of_within place))

end tokens

section placeholders

variable {source : List Char} {here : Cursor}

theorem placed_readOperand (place : Within source here) :
    (readOperand here).Placed source here fun operand => operand.toList.map Operand.outline := by
  unfold readOperand
  split
  · next atBar => exact (placed_readQuoted place atBar).map fun token => rfl
  · split
    · exact (placed_readVariable place).map fun token => rfl
    · exact ⟨.nil (Nat.le_refl _), .nil⟩

theorem placed_readOptionValue (place : Within source here) :
    (readOptionValue here).Placed source here fun value => [value.outline] := by
  unfold readOptionValue
  split
  · next atBar => exact (placed_readQuoted place atBar).map fun token => rfl
  · split
    · exact (placed_readVariable place).map fun token => rfl
    · exact (placed_readWordToken place).map fun token => rfl

theorem placed_readOption? {reading : Reading OptionEntry} (place : Within source here)
    (found : readOption? here = some reading) :
    reading.Placed source here fun entry => [entry.outline] := by
  simp only [readOption?] at found
  split at found
  · obtain rfl := Option.some.inj found
    have start : Within source (skipBlank here) := place.trans (reaches_skipBlank here)
    have name := reaches_readWord (skipBlank here)
    have gap := name.trans (reaches_skipBlank _)
    have equals := gap.trans (reaches_expect '=' _)
    have before := equals.trans (reaches_skipBlank _)
    have value := placed_readOptionValue (start.trans before)
    have fits := Span.Fits.of_reaches start (before.trans (reaches_readOptionValue _))
    refine ⟨.single (.of_row fits (value.row.start_le before.offset_le)) ?_ (Nat.le_refl _), ?_⟩
    · exact (reaches_skipBlank here).offset_le
    · exact .append (fits_expect '=' (start.trans gap)) value.errors
  · cases found

theorem placed_readSignature (place : Within source here) :
    (readSignature here).Placed source here fun signature => signature.2.map OptionEntry.outline := by
  have options := placed_many readOption?_progresses placed_readOption?
    (place.trans (reaches_readName here))
  refine ⟨options.row.start_le (reaches_readName here).offset_le, ?_⟩
  refine .append ?_ options.errors
  simp only [readName]
  split
  · exact .nil
  · exact .single (.of_within place)

theorem placed_closeBody {body : PlaceholderBody} {errors : List Error} {after : Cursor}
    (place : Within source here) (reach : Reaches here after) (errorsFit : ErrorsFit source errors)
    (row : Row source here.offset after.offset [body.outline]) :
    (closeBody here body errors after).Placed source here fun node => [node.outline] := by
  have extra := reach.trans (reaches_skipBlank after)
  have skipped := reaches_closingBrace (skipBlank after)
  have brace := place.trans (extra.trans skipped)
  have closed := reaches_closeBody here body errors after
  have fits := Span.Fits.of_reaches place (reach.trans closed)
  refine ⟨.whole fits (row.le_stop closed.offset_le), ?_⟩
  have stretch := Span.Fits.of_reaches (place.trans extra) skipped
  exact .append (.append errorsFit (.ite .nil (.single stretch))) (fits_expect '}' brace)

theorem placed_closeJunk {start : Cursor} (place : Within source here) (reach : Reaches here start) :
    (closeJunk here start).Placed source here fun node => [node.outline] := by
  have first := reaches_junk_first start
  obtain ⟨junk, closed⟩ := reaches_junk_end (if start.isAt '}' then start else start.advance)
  have begins := place.trans reach
  have junk := first.trans junk
  have skipped : Reaches start (closingBrace (skipBlank _)) :=
    first.trans ((reaches_skipBlank _).trans (reaches_closingBrace _))
  have fits := Span.Fits.of_reaches place (reach.trans (junk.trans closed))
  refine ⟨.whole fits ?_, ?_⟩
  · exact .single (.kept begins junk) reach.offset_le closed.offset_le
  · exact .cons (.of_reaches begins junk) (fits_expect '}' (begins.trans skipped))

theorem fits_optionErrors {options : List OptionEntry} {first last : Nat}
    (row : Row source first last (options.map OptionEntry.outline)) :
    ErrorsFit source (optionErrors options) := by
  unfold optionErrors
  split
  · next earliest latest head foot =>
    have first : (options.map OptionEntry.outline).head? = some earliest.outline := by simp [head]
    have last : (options.map OptionEntry.outline).getLast? = some latest.outline := by simp [foot]
    exact .single (row.hull first last)
  · exact .nil

/-- A call spans from its operand, or else from its sigil, to the end of its signature. -/
theorem placed_call {operand : Option Operand} {name : String} {options : List OptionEntry}
    {first middle : Nat} {sigil later : Cursor} (place : Within source sigil)
    (reach : Reaches sigil later) (earlier : first ≤ sigil.offset) (before : middle ≤ sigil.offset)
    (row : Row source first middle (operand.toList.map Operand.outline))
    (rest : Row source sigil.offset later.offset (options.map OptionEntry.outline)) :
    let start := (operand.map fun node => node.span.start).getD sigil.offset
    Row source first later.offset [(Call.mk ⟨start, later.offset⟩ operand name options).outline] := by
  have signature := Span.Fits.of_reaches place reach
  have row := row.append (rest.start_le before)
  cases operand with
  | none => exact .single (.of_row signature rest) earlier (Nat.le_refl _)
  | some node =>
    cases row with
    | cons after placed rest =>
      have fits := placed.fits.hull signature (Nat.le_trans placed.fits.ordered rest.le)
      simp only [Operand.outline_span] at fits after
      exact .single (.of_row fits (.cons (Nat.le_of_eq (by simp)) placed rest)) after (Nat.le_refl _)

theorem readPlaceholder_span_start (here : Cursor) :
    (readPlaceholder here).value.span.start = here.offset := by
  unfold readPlaceholder
  simp only
  split
  · rfl
  · split
    · rfl
    · split
      · rfl
      · split <;> rfl

theorem placed_readPlaceholder (place : Within source here) :
    (readPlaceholder here).Placed source here fun node => [node.outline] := by
  have inside := (Text.Cursor.reaches_advance here).trans (reaches_skipBlank here.advance)
  have operand := placed_readOperand (place.trans inside)
  have afterOperand := inside.trans (reaches_readOperand _)
  have gap := reaches_skipBlank (readOperand (skipBlank here.advance)).next
  have beforeSigil := afterOperand.trans gap
  have past := Text.Cursor.reaches_advance (skipBlank (readOperand (skipBlank here.advance)).next)
  have signature := placed_readSignature (place.trans (beforeSigil.trans past))
  have reach := past.trans (reaches_readSignature _)
  have afterSignature := beforeSigil.trans reach
  have options := signature.row.start_le past.offset_le
  have operandErrors : ErrorsFit source ((readOperand (skipBlank here.advance)).value.toList.map
      fun node => .extraContent node.span) := by
    intro error member
    obtain ⟨node, present, rfl⟩ := List.mem_map.mp member
    have placed := operand.row.placed node.outline (List.mem_map_of_mem present)
    exact node.outline_span ▸ placed.fits
  have errors := (operandErrors.append operand.errors).append signature.errors
  have fits := Span.Fits.of_reaches (place.trans beforeSigil) reach
  unfold readPlaceholder
  simp only
  split
  · refine placed_closeBody place afterSignature
      (.append operand.errors signature.errors) ?_
    exact placed_call (place.trans beforeSigil) reach beforeSigil.offset_le gap.offset_le
      (operand.row.start_le inside.offset_le) options
  · split
    · refine placed_closeBody place afterSignature errors ?_
      exact .single (.of_row fits options) beforeSigil.offset_le (Nat.le_refl _)
    · split
      · refine placed_closeBody place afterSignature
          (.append errors (fits_optionErrors options)) ?_
        exact .single (.leaf fits) beforeSigil.offset_le (Nat.le_refl _)
      · have only {node : Operand} (found : (readOperand (skipBlank here.advance)).value = some node) :
            Row source here.offset (readOperand (skipBlank here.advance)).next.offset
              [node.outline] := by
          simpa [found] using operand.row.start_le inside.offset_le
        split
        · next token found => exact placed_closeBody place afterOperand operand.errors (only found)
        · next token found => exact placed_closeBody place afterOperand operand.errors (only found)
        · exact placed_closeJunk place beforeSigil

end placeholders

section patterns

variable {source : List Char} {here : Cursor}

theorem fits_patternText {offset : Nat} {text : List Char} (place : Within source ⟨offset, text⟩) :
    ErrorsFit source (patternText offset text).errors := by
  fun_induction patternText offset text with
  | case1 offset => exact .nil
  | case2 offset rest => exact .nil
  | case3 offset rest => exact .nil
  | case4 offset rest ih => exact ih place.cons.cons
  | case5 offset rest ih => exact ih place.cons.cons
  | case6 offset rest ih => exact ih place.cons.cons
  | case7 offset rest _ _ _ more ih =>
    exact .cons (fits_backslash place) (ih place.cons)
  | case8 offset c rest _ _ _ _ _ _ ih => exact ih place.cons

theorem placed_readElement? {reading : Reading Element} (place : Within source here)
    (found : readElement? here = some reading) :
    reading.Placed source here fun element => [element.outline] := by
  simp only [readElement?] at found
  split at found
  · cases found
  · split at found
    · obtain rfl := Option.some.inj found
      exact (placed_readPlaceholder place).map fun node => rfl
    · obtain rfl := Option.some.inj found
      exact ⟨placed_token place (reaches_patternText here.offset here.rest) rfl,
        fits_patternText place⟩

/-- A pattern spans from its opening brace to its closing one, or to the end of the source. -/
theorem placed_readPattern (place : Within source here) :
    (readPattern here).Placed source here fun node => [node.outline] := by
  have opening := Text.Cursor.reaches_advance here
  have elements := placed_many readElement?_progresses placed_readElement? (place.trans opening)
  have body := opening.trans (reaches_many readElement?_progresses here.advance)
  have closed := reaches_expect '}' (many readElement? readElement?_progresses here.advance).next
  have fits := Span.Fits.of_reaches place (body.trans closed)
  have row := (elements.row.start_le opening.offset_le).le_stop closed.offset_le
  exact ⟨.whole fits row,
    .append elements.errors (fits_expect '}' (place.trans body))⟩

theorem placed_readVariantPattern (place : Within source here) :
    (readVariantPattern here).Placed source here fun node => [node.outline] := by
  unfold readVariantPattern
  split
  · exact placed_readPattern place
  · exact ⟨.whole (.of_within place) (.nil (Nat.le_refl _)), .single (.of_within place)⟩

end patterns

section templates

variable {source : List Char} {here : Cursor}

theorem placed_readTarget (place : Within source here) :
    (readTarget here).Placed source here fun token => [token.outline] := by
  unfold readTarget
  split
  · exact placed_readVariable place
  · exact ⟨placed_token place (Reaches.refl here) rfl, .single (.of_within place)⟩

theorem placed_emptyJunk {error : Error} (place : Within source here)
    (fits : error.span.Fits source) :
    (emptyJunk here.offset error here).Placed source here fun node => [node.outline] := by
  have nowhere := Span.Fits.of_within place
  have junk := Placed.kept place (Reaches.refl here)
  have empty : String.ofList (here.upTo here) = "" := by
    rw [Text.Cursor.upTo_eq_of_rest_eq (List.nil_append _).symm]
  rw [empty] at junk
  exact ⟨.whole nowhere (.single junk (Nat.le_refl _) (Nat.le_refl _)), .single fits⟩

theorem placed_readDeclared (place : Within source here) :
    (readDeclared here).Placed source here fun node => [node.outline] := by
  unfold readDeclared
  split
  · exact placed_readPlaceholder place
  · exact placed_emptyJunk place (.of_within place)

theorem placed_readDeclaration? {reading : Reading Declaration} (place : Within source here)
    (found : readDeclaration? here = some reading) :
    reading.Placed source here fun node => [node.outline] := by
  obtain ⟨after, keyword, rfl⟩ := Option.map_eq_some_iff.mp found
  have start := reaches_skipBlank here
  have word := (advances_keyword? (by simp) keyword).1.trans (reaches_skipBlank after)
  have begins := place.trans start
  have target := placed_readTarget (begins.trans word)
  have sign := (word.trans (reaches_readTarget _)).trans (reaches_skipBlank _)
  have gap := (reaches_expect '=' (skipBlank (readTarget (skipBlank after)).next)).trans
    (reaches_skipBlank _)
  have value := placed_readDeclared (begins.trans (sign.trans gap))
  have behind := (reaches_skipBlank (readTarget (skipBlank after)).next).trans gap
  have row := (target.row.start_le word.offset_le).append (value.row.start_le behind.offset_le)
  obtain ⟨row, before⟩ := row.to_last
  have fits := (Span.Fits.of_within begins).hull (row.placed _ (by simp)).fits row.le
  refine ⟨.single (.of_row fits row) start.offset_le before, ?_⟩
  exact .append (.append target.errors (fits_expect '=' (begins.trans sign))) value.errors

theorem placed_readSelector? {reading : Reading Placeholder} (place : Within source here)
    (found : readSelector? here = some reading) :
    reading.Placed source here fun node => [node.outline] := by
  simp only [readSelector?] at found
  split at found
  · obtain rfl := Option.some.inj found
    have start := reaches_skipBlank here
    exact (placed_readPlaceholder (place.trans start)).after start
  · cases found

theorem placed_star (place : Within source here) (star : here.isAt '*' = true) :
    Row source here.offset here.advance.offset [(Key.wildcard here.offset).outline] := by
  obtain ⟨offset, rest⟩ := here
  cases rest with
  | nil => cases star
  | cons c rest =>
    obtain rfl : c = '*' := by simpa using star
    exact .whole (.of_reaches place (Text.Cursor.reaches_advance ⟨offset, '*' :: rest⟩))
      (.nil (Nat.le_add_right ..))

theorem placed_readKey? {reading : Reading Key} (place : Within source here)
    (found : readKey? here = some reading) :
    reading.Placed source here fun key => [key.outline] := by
  have start := reaches_skipBlank here
  have begins := place.trans start
  simp only [readKey?] at found
  split at found
  · cases found
  · split at found
    · next star =>
      obtain rfl := Option.some.inj found
      exact ⟨(placed_star begins star).start_le start.offset_le, .nil⟩
    · split at found
      · next atBar =>
        obtain rfl := Option.some.inj found
        exact ((placed_readQuoted begins atBar).map fun token => rfl).after start
      · split at found
        · obtain rfl := Option.some.inj found
          exact ((placed_readWordToken begins).map fun token => rfl).after start
        · cases found

theorem placed_readVariant? {selectorCount : Nat} {reading : Reading Variant}
    (place : Within source here) (found : readVariant? selectorCount here = some reading) :
    reading.Placed source here fun node => [node.outline] := by
  obtain ⟨after, keyword, rfl⟩ := Option.map_eq_some_iff.mp found
  have start := reaches_skipBlank here
  have word := (advances_keyword? (by simp) keyword).1
  have begins := place.trans start
  have keys := placed_many readKey?_progresses placed_readKey? (begins.trans word)
  have last := word.trans (reaches_many readKey?_progresses after)
  have gap := reaches_skipBlank (many readKey? readKey?_progresses after).next
  have value := placed_readVariantPattern (begins.trans (last.trans gap))
  have row := (keys.row.start_le word.offset_le).append (value.row.start_le gap.offset_le)
  obtain ⟨row, before⟩ := row.to_last
  have fits := (Span.Fits.of_within begins).hull (row.placed _ (by simp)).fits row.le
  refine ⟨.single (.of_row fits row) start.offset_le before, ?_⟩
  have noKeys := Span.Fits.of_within (begins.trans last)
  refine .append (.append (.append keys.errors ?_) value.errors) ?_
  · exact .ite (.single noKeys) .nil
  · exact .ite (.single fits) .nil

theorem placed_readSelect {after : Cursor} (place : Within source here) (reach : Reaches here after) :
    (readSelect here after).Placed source here fun node => [node.outline] := by
  have selectors := placed_many readSelector?_progresses placed_readSelector? (place.trans reach)
  have middle := reach.trans (reaches_many readSelector?_progresses after)
  have progresses :=
    readVariant?_progresses (many readSelector? readSelector?_progresses after).value.length
  have variants := placed_many progresses placed_readVariant? (place.trans middle)
  have whole := middle.trans (reaches_many progresses _)
  have fits := Span.Fits.of_reaches place whole
  have row := (selectors.row.start_le reach.offset_le).append variants.row
  refine ⟨.whole fits row, ?_⟩
  have noSelectors := Span.Fits.of_within (place.trans (middle.trans (reaches_skipBlank _)))
  have noVariants := Span.Fits.of_within (place.trans (whole.trans (reaches_skipBlank _)))
  refine .append (.append (.append selectors.errors ?_) variants.errors) ?_
  · exact .ite (.single noSelectors) .nil
  · exact .ite (.single noVariants) .nil

theorem placed_readBody (place : Within source here) :
    (readBody here).Placed source here fun body => [body.outline] := by
  unfold readBody
  split
  · next after keyword =>
    exact (placed_readSelect place (advances_keyword? (by simp) keyword).1).map fun node => rfl
  · split
    · exact (placed_readPattern place).map fun node => rfl
    · have junk := Placed.kept place (reaches_end here)
      rw [Text.Cursor.upTo_eq_of_rest_eq (List.append_nil _).symm] at junk
      exact ⟨.single junk (Nat.le_refl _) (Nat.le_refl _), .single (.to_end place)⟩

theorem placed_parseTemplate (source : List Char) :
    ((parseTemplate source).1.outline source).Placed source ∧
      ErrorsFit source (parseTemplate source).2 := by
  have start := Within.start source
  have declarations := placed_many readDeclaration?_progresses placed_readDeclaration? start
  have before := (reaches_many readDeclaration?_progresses (Cursor.start source)).trans
    (reaches_skipBlank _)
  have body := placed_readBody (start.trans before)
  have behind := (before.trans (reaches_readBody _)).trans (reaches_skipBlank _)
  have trailing := Span.Fits.to_end (start.trans behind)
  have row := declarations.row.append (body.row.start_le (reaches_skipBlank _).offset_le)
  have last := (Within.isBoundary (start.trans (before.trans (reaches_readBody _)))).le_byteLength
  have whole : Span.Fits source ⟨0, byteLength source⟩ := by
    simpa [Cursor.start, Cursor.endOffset] using Span.Fits.to_end start
  refine ⟨.of_row whole (row.le_stop last), ?_⟩
  exact .append (.append declarations.errors body.errors) (.ite .nil (.single trailing))

end templates

section sources

/-- A brace opens at an offset of the source. -/
def Opens (source : List Char) (offset : Nat) : Prop :=
  ∃ before after, source = before ++ '{' :: after ∧ byteLength before = offset

theorem parsePlaceholder_of_not_opens {source : List Char} {start : Nat}
    (closed : ¬ Opens source start) :
    let offset := min start (byteLength source)
    parsePlaceholder source start =
      (⟨⟨offset, offset⟩, .junk ⟨⟨offset, offset⟩, ""⟩⟩, [.malformed ⟨offset, offset⟩]) := by
  have nowhere : (Cursor.at? source start).filter (·.isAt '{') = none := by
    apply Option.filter_eq_none_iff.mpr
    intro here found opens
    obtain ⟨⟨before, rest⟩, cut, rfl⟩ := Option.map_eq_some_iff.mp found
    obtain ⟨split, size⟩ := Text.eq_append_of_splitAtOffset? cut
    refine closed ⟨before, (Cursor.advance ⟨start, rest⟩).rest, ?_, size⟩
    rw [split]
    exact congrArg (before ++ ·) (Grammar.rest_eq_of_isAt opens)
  simp only [parsePlaceholder, nowhere, emptyJunk]

/-- Reading a source puts everything where it belongs, however the source is formed. By offsets, every
slice that is taken lies in the source between characters, and every repetition comes to an end. From an
opening brace on, the placeholder starts there, every node of it covers whole characters of the source,
lies in the node around it and behind those before it, junk keeps exactly its stretch of the source, and
every error points into the source. From any other offset, even inside a character, there is only
empty junk with its error, there or at the end. A whole template is placed in the same way. -/
theorem reading_placed (source : List Char) (start : Nat) :
    let parsed := parsePlaceholder source start
    let offset := min start (byteLength source)
    let template := parseTemplate source
    Slicing.parsePlaceholder source start = some parsed ∧
    Slicing.parseTemplate source = some template ∧
    (Opens source start → parsed.1.span.start = start ∧ parsed.1.outline.Placed source ∧
      ErrorsFit source parsed.2) ∧
    (¬ Opens source start → parsed =
      (⟨⟨offset, offset⟩, .junk ⟨⟨offset, offset⟩, ""⟩⟩, [.malformed ⟨offset, offset⟩])) ∧
    (template.1.outline source).Placed source ∧ ErrorsFit source template.2 := by
  intro parsed offset template
  refine ⟨Slicing.parsePlaceholder_eq source start, Slicing.parseTemplate_eq source, ?_,
    parsePlaceholder_of_not_opens, placed_parseTemplate source⟩
  rintro ⟨before, after, rfl, rfl⟩
  have place := Within.of_append before ('{' :: after)
  have placed := placed_readPlaceholder place
  simp only [parsed, Grammar.parsePlaceholder_brace]
  exact ⟨readPlaceholder_span_start _, placed.row.placed _ (List.mem_singleton_self _), placed.errors⟩

/-- A quotation that nothing closes, behind a letter of two bytes: the placeholder that opens there is
placed, and inside the letter there is only empty junk, which takes no slice. -/
theorem reading_placed_unclosed :
    let source := "é\x7b|ü".toList
    let parsed := parsePlaceholder source 2
    Slicing.parsePlaceholder source 2 = some parsed ∧
    (Opens source 2 ∧ parsed.1.span.start = 2 ∧ parsed.1.outline.Placed source ∧
      ErrorsFit source parsed.2) ∧
    ¬ Opens source 1 ∧ Text.sliceFrom? source 1 = none ∧
    Slicing.parsePlaceholder source 1 =
      some (⟨⟨1, 1⟩, .junk ⟨⟨1, 1⟩, ""⟩⟩, [.malformed ⟨1, 1⟩]) := by
  intro source parsed
  have opens : Opens source 2 := ⟨['é'], ['|', 'ü'], by decide, by decide⟩
  have inside : Text.splitAtOffset? source 1 = none := by decide
  have closed : ¬ Opens source 1 := by
    rintro ⟨before, after, split, size⟩
    have cut := Text.splitAtOffset?_append before ('\x7b' :: after)
    rw [← split, size, inside] at cut
    cases cut
  obtain ⟨sliced, -, placed, -⟩ := reading_placed source 2
  obtain ⟨sliced', -, -, empty, -⟩ := reading_placed source 1
  exact ⟨sliced, ⟨opens, placed opens⟩, closed, congrArg (Option.map Prod.snd) inside,
    sliced'.trans (congrArg some (empty closed))⟩

end sources

end Phrasebook.Syntax
