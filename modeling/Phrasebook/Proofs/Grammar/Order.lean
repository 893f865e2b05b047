import Phrasebook.Proofs.Grammar.Placement

/-!
The order in which errors are reported. Every reader goes on from a place to a later one, and what it
finds on its way starts between the two, each error no earlier than those before it. Only an error
about a stretch that has been read through comes after the errors inside that stretch, and it covers
where they start.
-/

namespace Phrasebook.Syntax

open Text (Cursor)
open Text.Cursor (Reaches)

section runs

/-- The stretch that the error is about holds the start of the other error. -/
def Error.Covers (error inner : Error) : Prop :=
  ∃ stop ∈ error.stop?, error.start ≤ inner.start ∧ inner.start ≤ stop

/-- Errors that start between two offsets, each no earlier than those before it. Where late errors are
allowed, an error may also come after errors that it covers. -/
structure ErrorsRun (late : Prop) (first last : Nat) (errors : List Error) : Prop where
  le : first ≤ last
  inside : ∀ error ∈ errors, first ≤ error.start ∧ error.start ≤ last
  ordered : errors.Pairwise fun earlier later =>
    earlier.start ≤ later.start ∨ (late ∧ later.Covers earlier)

namespace ErrorsRun

variable {late allowed : Prop} {first middle last : Nat} {errors others : List Error} {error : Error}

theorem nil (ordered : first ≤ last) : ErrorsRun late first last [] :=
  ⟨ordered, List.forall_mem_nil _, .nil⟩

theorem single (after : first ≤ error.start) (before : error.start ≤ last) :
    ErrorsRun late first last [error] where
  le := Nat.le_trans after before
  inside := by simpa using ⟨after, before⟩
  ordered := List.pairwise_singleton ..

theorem append (run : ErrorsRun late first middle errors) (rest : ErrorsRun late middle last others) :
    ErrorsRun late first last (errors ++ others) where
  le := Nat.le_trans run.le rest.le
  inside := by
    intro error member
    rcases List.mem_append.mp member with front | back
    · obtain ⟨after, before⟩ := run.inside error front
      exact ⟨after, Nat.le_trans before rest.le⟩
    · obtain ⟨after, before⟩ := rest.inside error back
      exact ⟨Nat.le_trans run.le after, before⟩
  ordered := by
    refine List.pairwise_append.mpr ⟨run.ordered, rest.ordered, ?_⟩
    intro earlier front later back
    exact .inl (Nat.le_trans (run.inside earlier front).2 (rest.inside later back).1)

theorem cons (after : first ≤ error.start) (before : error.start ≤ middle)
    (rest : ErrorsRun late middle last errors) : ErrorsRun late first last (error :: errors) :=
  (single after before).append rest

theorem start_le (run : ErrorsRun late middle last errors) (earlier : first ≤ middle) :
    ErrorsRun late first last errors := (nil earlier).append run

theorem le_stop (run : ErrorsRun late first middle errors) (later : middle ≤ last) :
    ErrorsRun late first last errors := by
  simpa using run.append (nil later)

theorem ite {condition : Prop} [Decidable condition] (run : ErrorsRun late first last errors)
    (other : ErrorsRun late first last others) :
    ErrorsRun late first last (if condition then errors else others) := by
  split
  · exact run
  · exact other

theorem single_if {condition : Prop} [Decidable condition] (after : first ≤ error.start)
    (before : error.start ≤ last) : ErrorsRun late first last (if condition then [error] else []) :=
  .ite (.single after before) (.nil (Nat.le_trans after before))

theorem mono (run : ErrorsRun late first last errors) (allows : late → allowed) :
    ErrorsRun allowed first last errors where
  le := run.le
  inside := run.inside
  ordered := run.ordered.imp (Or.imp_right (And.imp_left allows))

/-- An error after the errors of the stretch that it covers. Unless there are none, it is late. -/
theorem covered {stop : Nat} (run : ErrorsRun late first last errors) (error : Error)
    (stops : error.stop? = some stop) (begins : error.start ≤ first) (ends : last ≤ stop)
    (allowed : errors ≠ [] → late) :
    ErrorsRun late error.start last (errors ++ [error]) where
  le := Nat.le_trans begins run.le
  inside := by
    intro other member
    rcases List.mem_append.mp member with front | itself
    · obtain ⟨after, before⟩ := run.inside other front
      exact ⟨Nat.le_trans begins after, before⟩
    · obtain rfl := List.mem_singleton.mp itself
      exact ⟨Nat.le_refl _, Nat.le_trans begins run.le⟩
  ordered := by
    refine List.pairwise_append.mpr ⟨run.ordered, List.pairwise_singleton .., ?_⟩
    intro earlier front later itself
    obtain rfl := List.mem_singleton.mp itself
    obtain ⟨after, before⟩ := run.inside earlier front
    exact .inr ⟨allowed (List.ne_nil_of_mem front), stop, stops, Nat.le_trans begins after,
      Nat.le_trans before ends⟩

private theorem append_covering {condition : Prop} [Decidable condition] {stop : Nat}
    (error : Error) (run : ErrorsRun True error.start last errors)
    (stops : error.stop? = some stop) (ends : last ≤ stop) :
    ErrorsRun True error.start last (errors ++ if condition then [error] else []) := by
  split
  · exact run.covered error stops (Nat.le_refl _) ends fun _ => trivial
  · simpa using run

private theorem ascending (run : ErrorsRun late first last errors) (never : ¬ late) :
    errors.Pairwise fun earlier later => earlier.start ≤ later.start :=
  run.ordered.imp fun ordered => ordered.resolve_right fun covering => never covering.1

end ErrorsRun

theorem runs_many {late : Prop} {step : Step α} (progresses : step.Progresses)
    (each : ∀ {here reading}, step here = some reading →
      ErrorsRun late here.offset reading.next.offset reading.errors) (here : Cursor) :
    ErrorsRun late here.offset (many step progresses here).next.offset
      (many step progresses here).errors := by
  fun_induction many step progresses here with
  | case1 here nothing => exact .nil (Nat.le_refl _)
  | case2 here reading found more ih => exact (each found).append ih

end runs

section tokens

variable {late : Prop}

theorem runs_expect (c : Char) (here : Cursor) :
    ErrorsRun late here.offset (expect c here).next.offset (expect c here).errors := by
  unfold expect
  split
  · exact .nil (Text.Cursor.reaches_advance here).offset_le
  · exact .single (Nat.le_refl _) (Nat.le_refl _)

theorem runs_readName (here : Cursor) :
    ErrorsRun late here.offset (readName here).next.offset (readName here).errors := by
  unfold readName
  split
  · exact .nil (reaches_readWord here).offset_le
  · exact .single (Nat.le_refl _) (Nat.le_refl _)

theorem runs_readVariable (here : Cursor) :
    ErrorsRun late here.offset (readVariable here).next.offset (readVariable here).errors :=
  (runs_readName here.advance).start_le (Text.Cursor.reaches_advance here).offset_le

theorem runs_quotedText (offset : Nat) (text : List Char) :
    ErrorsRun late offset (quotedText offset text).next.offset (quotedText offset text).errors := by
  fun_induction quotedText offset text with
  | case1 offset => exact .single (Nat.le_refl _) (Nat.le_refl _)
  | case2 offset rest => exact .nil (Nat.le_add_right ..)
  | case3 offset rest ih => exact ih.start_le (Nat.le_add_right ..)
  | case4 offset rest ih => exact ih.start_le (Nat.le_add_right ..)
  | case5 offset rest _ _ more ih => exact .cons (Nat.le_refl _) (Nat.le_add_right ..) ih
  | case6 offset c rest _ _ _ _ ih => exact ih.start_le (Nat.le_add_right ..)

theorem runs_readQuoted (here : Cursor) :
    ErrorsRun late here.offset (readQuoted here).next.offset (readQuoted here).errors :=
  (runs_quotedText (here.offset + 1) here.advance.rest).start_le (Nat.le_add_right ..)

theorem runs_readWordToken (here : Cursor) :
    ErrorsRun late here.offset (readWordToken here).next.offset (readWordToken here).errors :=
  have word := (reaches_readWord here).offset_le
  .ite (.nil word) (.single (Nat.le_refl _) word)

end tokens

section options

variable {late : Prop}

theorem runs_readOperand (here : Cursor) :
    ErrorsRun late here.offset (readOperand here).next.offset (readOperand here).errors := by
  unfold readOperand
  split
  · exact runs_readQuoted here
  · split
    · exact runs_readVariable here
    · exact .nil (Nat.le_refl _)

theorem runs_readOptionValue (here : Cursor) :
    ErrorsRun late here.offset (readOptionValue here).next.offset (readOptionValue here).errors := by
  unfold readOptionValue
  split
  · exact runs_readQuoted here
  · split
    · exact runs_readVariable here
    · exact runs_readWordToken here

theorem runs_readOption? {here : Cursor} {reading : Reading OptionEntry}
    (found : readOption? here = some reading) :
    here.offset ≤ reading.value.span.start ∧ reading.value.span.stop = reading.next.offset ∧
      ErrorsRun late (reading.value.span.start + 1) reading.next.offset reading.errors := by
  simp only [readOption?] at found
  split at found
  · next present =>
    obtain rfl := Option.some.inj found
    have named := advances_readWord (follows_isNameChar (Bool.and_eq_true_iff.mp present).2)
    have gap := reaches_skipBlank (readWord (skipBlank here)).next
    have spaced := reaches_skipBlank (expect '=' (skipBlank (readWord (skipBlank here)).next)).next
    refine ⟨(reaches_skipBlank here).offset_le, rfl, ?_⟩
    have name := Nat.le_trans (Nat.succ_le_of_lt named.offset_lt) gap.offset_le
    exact ((runs_expect '=' _).start_le name).append
      ((runs_readOptionValue _).start_le spaced.offset_le)
  · cases found

theorem runs_readSignature (here : Cursor) :
    ErrorsRun late here.offset (readSignature here).next.offset (readSignature here).errors := by
  refine (runs_readName here).append (runs_many readOption?_progresses ?_ _)
  intro start reading found
  obtain ⟨after, -, errors⟩ := runs_readOption? found
  exact errors.start_le (Nat.le_succ_of_le after)

private theorem optionErrors_cons {more : List OptionEntry} {span : Span} (entry : OptionEntry)
    (others : optionErrors more = [.extraContent span]) :
    optionErrors (entry :: more) = [.extraContent ⟨entry.span.start, span.stop⟩] := by
  cases more with
  | nil => cases others
  | cons next rest =>
    have last : ∃ last, (next :: rest).getLast? = some last :=
      ⟨_, List.getLast?_eq_some_getLast (List.cons_ne_nil next rest)⟩
    obtain ⟨last, foot⟩ := last
    simp only [optionErrors, List.head?_cons, List.getLast?_cons_cons, foot] at others ⊢
    cases others
    rfl

/-- Options are read one after the other. Unless there are none, the stretch from the first to the last
holds the starts of all their errors, behind its own start. -/
theorem options_reported (here : Cursor) :
    let options := many readOption? readOption?_progresses here
    options = ⟨[], [], here⟩ ∨
      ∃ span, optionErrors options.value = [.extraContent span] ∧ here.offset ≤ span.start ∧
        span.stop = options.next.offset ∧
        ErrorsRun False (span.start + 1) options.next.offset options.errors := by
  intro options
  simp only [options]
  clear options
  fun_induction many readOption? readOption?_progresses here with
  | case1 here nothing => exact .inl rfl
  | case2 here reading found more ih =>
    right
    obtain ⟨after, stops, errors⟩ := runs_readOption? found
    rcases ih with nothing | ⟨span, reported, behind, ends, others⟩
    · simp only [more, nothing]
      exact ⟨reading.value.span, rfl, after, stops, by simpa using errors⟩
    · refine ⟨⟨reading.value.span.start, span.stop⟩, optionErrors_cons _ reported, after, ends, ?_⟩
      exact errors.append (others.start_le (Nat.le_succ_of_le behind))

end options

section placeholders

variable {late : Prop}

theorem runs_closeBody {first : Nat} {here after : Cursor} {body : PlaceholderBody}
    {errors : List Error} (run : ErrorsRun late first after.offset errors) :
    ErrorsRun late first (closeBody here body errors after).next.offset
      (closeBody here body errors after).errors := by
  have extra := reaches_skipBlank after
  have skipped := reaches_closingBrace (skipBlank after)
  refine ((run.le_stop extra.offset_le).append ?_).append (runs_expect '}' _)
  exact .ite (.nil skipped.offset_le) (.single (Nat.le_refl _) skipped.offset_le)

theorem runs_closeJunk (here start : Cursor) :
    ErrorsRun late start.offset (closeJunk here start).next.offset (closeJunk here start).errors := by
  have first := reaches_junk_first start
  have skipped := first.trans ((reaches_skipBlank _).trans (reaches_closingBrace _))
  exact .cons (Nat.le_refl _) skipped.offset_le (runs_expect '}' _)

/-- The options of a closing marker that opens at `here` and their errors. Its node keeps none of them;
other placeholders have none to drop. -/
def droppedOptions (here : Cursor) : List OptionEntry × List Error :=
  let sigil := skipBlank (readOperand (skipBlank here.advance)).next
  if sigil.isAt '-' then
    let options := many readOption? readOption?_progresses (readName sigil.advance).next
    (options.value, options.errors)
  else ([], [])

theorem runs_operandErrors (here : Cursor) :
    ErrorsRun late here.offset (readOperand here).next.offset
      ((readOperand here).value.toList.map (fun node => .extraContent node.span) ++
        (readOperand here).errors) := by
  unfold readOperand
  split
  · exact .cons (Nat.le_refl _) (Nat.le_refl _) (runs_readQuoted here)
  · split
    · exact .cons (Nat.le_refl _) (Nat.le_refl _) (runs_readVariable here)
    · exact .nil (Nat.le_refl _)

/-- The report that options are dropped comes behind their own errors, where it is late unless there are
none. In front of them it would not be. -/
theorem runs_dropped (here : Cursor) :
    let options := many readOption? readOption?_progresses here
    ErrorsRun (options.errors ≠ []) here.offset options.next.offset
        (options.errors ++ optionErrors options.value) ∧
      ErrorsRun False here.offset options.next.offset
        (optionErrors options.value ++ options.errors) ∧
      ∀ error ∈ options.errors, ∃ report ∈ optionErrors options.value, report.start < error.start := by
  intro options
  rcases options_reported here with nothing | ⟨span, reported, behind, ends, errors⟩
  · simp only [options, nothing]
    exact ⟨.nil (Nat.le_refl _), .nil (Nat.le_refl _), List.forall_mem_nil _⟩
  · simp only [options, reported]
    refine ⟨?_, .cons behind (Nat.le_succ _) errors, ?_⟩
    · have late := (errors.mono False.elim).covered (.extraContent span) rfl (Nat.le_succ _)
        (Nat.le_of_eq ends.symm) id
      exact late.start_le behind
    · intro error member
      exact ⟨_, List.mem_singleton_self _, (errors.inside error member).1⟩

private theorem closeBody_errors (here : Cursor) (body : PlaceholderBody) (after : Cursor) :
    ∃ closing, ∀ errors, (closeBody here body errors after).errors = errors ++ closing :=
  ⟨_, fun _ => List.append_assoc ..⟩

/-- A placeholder's errors are in order but for one case: the report that a closing marker drops its
options stands behind the errors of these. In front of them it would be in order. -/
structure InOrderButDropped (first last : Nat) (dropped : List OptionEntry × List Error)
    (errors : List Error) : Prop where
  run : ErrorsRun (dropped.2 ≠ []) first last errors
  mended : ∃ before after, errors = before ++ (dropped.2 ++ optionErrors dropped.1) ++ after ∧
    ErrorsRun False first last (before ++ (optionErrors dropped.1 ++ dropped.2) ++ after)
  behind : ∀ error ∈ dropped.2, ∃ report ∈ optionErrors dropped.1, report.start < error.start

theorem InOrderButDropped.of_ascending {first last : Nat} {errors : List Error}
    (run : ErrorsRun False first last errors) : InOrderButDropped first last ([], []) errors where
  run := run.mono False.elim
  mended := ⟨errors, [], by simp [optionErrors], by simpa [optionErrors] using run⟩
  behind := List.forall_mem_nil _

/-- A closing marker with its options, which are read from `start` on, behind its name. -/
theorem InOrderButDropped.closing {here start : Cursor} {body : PlaceholderBody} {middle : Nat}
    {errors named : List Error} (front : ErrorsRun False here.offset middle errors)
    (name : ErrorsRun False middle start.offset named) :
    let options := many readOption? readOption?_progresses start
    let reading := closeBody here body
      (errors ++ (named ++ options.errors) ++ optionErrors options.value) options.next
    InOrderButDropped here.offset reading.next.offset (options.value, options.errors)
      reading.errors := by
  intro options
  have same : errors ++ (named ++ options.errors) ++ optionErrors options.value =
      (errors ++ named) ++ (options.errors ++ optionErrors options.value) := by simp
  obtain ⟨reported, mended, behind⟩ := runs_dropped start
  obtain ⟨closing, split⟩ := closeBody_errors here body options.next
  have before := front.append name
  rw [same]
  refine ⟨runs_closeBody ((before.mono False.elim).append reported), ⟨_, closing, split _, ?_⟩, behind⟩
  rw [← split]
  exact runs_closeBody (before.append mended)

private theorem isAt_eq_false {c d : Char} {here : Cursor} (present : here.isAt c = true) (different : c ≠ d) :
    here.isAt d = false := by
  obtain ⟨offset, rest⟩ := here
  cases rest with
  | nil => rfl
  | cons first rest =>
    obtain rfl : first = c := by simpa using present
    simpa using different

theorem readPlaceholder_reports (here : Cursor) :
    InOrderButDropped here.offset (readPlaceholder here).next.offset (droppedOptions here)
      (readPlaceholder here).errors := by
  have inside := (Text.Cursor.reaches_advance here).trans (reaches_skipBlank here.advance)
  have operand : ErrorsRun False here.offset _ _ :=
    (runs_readOperand (skipBlank here.advance)).start_le inside.offset_le
  have marked : ErrorsRun False here.offset _ _ :=
    (runs_operandErrors (skipBlank here.advance)).start_le inside.offset_le
  have gap := reaches_skipBlank (readOperand (skipBlank here.advance)).next
  have past := Text.Cursor.reaches_advance (skipBlank (readOperand (skipBlank here.advance)).next)
  have beforeName := (gap.trans past).offset_le
  unfold readPlaceholder droppedOptions
  simp only
  split
  · next colon =>
    rw [if_neg (by simp [isAt_eq_false colon])]
    exact .of_ascending
      (runs_closeBody ((operand.le_stop beforeName).append (runs_readSignature _)))
  · split
    · next plus =>
      rw [if_neg (by simp [isAt_eq_false plus])]
      exact .of_ascending
        (runs_closeBody ((marked.le_stop beforeName).append (runs_readSignature _)))
    · split
      · exact .closing (marked.le_stop beforeName) (runs_readName _)
      · split
        · exact .of_ascending (runs_closeBody operand)
        · exact .of_ascending (runs_closeBody operand)
        · exact .of_ascending ((runs_closeJunk here _).start_le
            (Nat.le_trans operand.le gap.offset_le))

/-- The errors of a placeholder are in the order of their starts, unless it is a closing marker with an
error in its options: then the report that the options are dropped stands behind that error, and
starts in front of it. If it stood in front, the errors would be in order in every case. -/
theorem parsePlaceholder_ascending_iff (source : List Char) (start : Nat) :
    let errors := (parsePlaceholder source start).2
    let dropped :=
      (((Cursor.at? source start).filter (·.isAt '{')).map droppedOptions).getD ([], [])
    ((errors.Pairwise fun earlier later => earlier.start ≤ later.start) ↔ dropped.2 = []) ∧
    ∃ before after, errors = before ++ (dropped.2 ++ optionErrors dropped.1) ++ after ∧
      (before ++ (optionErrors dropped.1 ++ dropped.2) ++ after).Pairwise
        fun earlier later => earlier.start ≤ later.start := by
  intro errors dropped
  obtain ⟨first, last, order⟩ : ∃ first last, InOrderButDropped first last dropped errors := by
    simp only [errors, dropped, parsePlaceholder]
    cases (Cursor.at? source start).filter (·.isAt '{') with
    | none => exact ⟨_, _, .of_ascending (.single (Nat.le_refl _) (Nat.le_refl _))⟩
    | some here => exact ⟨_, _, readPlaceholder_reports here⟩
  obtain ⟨before, after, split, mended⟩ := order.mended
  refine ⟨⟨?_, ?_⟩, before, after, split, mended.ascending id⟩
  · intro ascending
    refine List.eq_nil_iff_forall_not_mem.mpr ?_
    intro error member
    obtain ⟨report, reported, behind⟩ := order.behind error member
    rw [split] at ascending
    have pair := (List.pairwise_append.mp (List.pairwise_append.mp ascending).1).2.1
    exact Nat.not_le_of_lt behind ((List.pairwise_append.mp pair).2.2 error member report reported)
  · intro clean
    exact order.run.ascending (fun some_error => some_error clean)

/-- A closing marker with an option that lacks its value. -/
theorem parsePlaceholder_descending :
    let errors := (parsePlaceholder "\x7b-b a\x7d".toList 0).2
    errors = [.missingChar 5 '=', .emptyToken 5, .extraContent ⟨4, 5⟩] ∧
      ¬ errors.Pairwise fun earlier later => earlier.start ≤ later.start := by
  decide +kernel

end placeholders

section templates

theorem runs_patternText {late : Prop} (offset : Nat) (text : List Char) :
    ErrorsRun late offset (patternText offset text).next.offset (patternText offset text).errors := by
  fun_induction patternText offset text with
  | case1 offset => exact .nil (Nat.le_refl _)
  | case2 offset rest => exact .nil (Nat.le_refl _)
  | case3 offset rest => exact .nil (Nat.le_refl _)
  | case4 offset rest ih => exact ih.start_le (Nat.le_add_right ..)
  | case5 offset rest ih => exact ih.start_le (Nat.le_add_right ..)
  | case6 offset rest ih => exact ih.start_le (Nat.le_add_right ..)
  | case7 offset rest _ _ _ more ih => exact .cons (Nat.le_refl _) (Nat.le_add_right ..) ih
  | case8 offset c rest _ _ _ _ _ _ ih => exact ih.start_le (Nat.le_add_right ..)

theorem runs_readPlaceholder (here : Cursor) :
    ErrorsRun True here.offset (readPlaceholder here).next.offset (readPlaceholder here).errors :=
  (readPlaceholder_reports here).run.mono fun _ => trivial

theorem runs_readElement? {here : Cursor} {reading : Reading Element}
    (found : readElement? here = some reading) :
    ErrorsRun True here.offset reading.next.offset reading.errors := by
  simp only [readElement?] at found
  split at found
  · cases found
  · split at found
    · obtain rfl := Option.some.inj found
      exact runs_readPlaceholder here
    · obtain rfl := Option.some.inj found
      exact runs_patternText here.offset here.rest

theorem runs_readPattern (here : Cursor) :
    ErrorsRun True here.offset (readPattern here).next.offset (readPattern here).errors := by
  have opening := (Text.Cursor.reaches_advance here).offset_le
  exact ((runs_many readElement?_progresses runs_readElement? here.advance).start_le opening).append
    (runs_expect '}' _)

theorem runs_readVariantPattern (here : Cursor) :
    ErrorsRun True here.offset (readVariantPattern here).next.offset
      (readVariantPattern here).errors := by
  unfold readVariantPattern
  split
  · exact runs_readPattern here
  · exact .single (Nat.le_refl _) (Nat.le_refl _)

private theorem readVariantPattern_span_stop (here : Cursor) :
    (readVariantPattern here).value.span.stop = (readVariantPattern here).next.offset := by
  unfold readVariantPattern
  split
  · rfl
  · rfl

theorem runs_readTarget (here : Cursor) :
    ErrorsRun True here.offset (readTarget here).next.offset (readTarget here).errors := by
  unfold readTarget
  split
  · exact runs_readVariable here
  · exact .single (Nat.le_refl _) (Nat.le_refl _)

theorem runs_readDeclared (here : Cursor) :
    ErrorsRun True here.offset (readDeclared here).next.offset (readDeclared here).errors := by
  unfold readDeclared
  split
  · exact runs_readPlaceholder here
  · exact .single (Nat.le_refl _) (Nat.le_refl _)

theorem runs_readDeclaration? {here : Cursor} {reading : Reading Declaration}
    (found : readDeclaration? here = some reading) :
    ErrorsRun True here.offset reading.next.offset reading.errors := by
  obtain ⟨after, keyword, rfl⟩ := Option.map_eq_some_iff.mp found
  have word := (reaches_skipBlank here).trans <|
    (advances_keyword? (by simp) keyword).1.trans (reaches_skipBlank after)
  have target := (runs_readTarget (skipBlank after)).start_le word.offset_le
  have equals := target.append
    ((runs_expect '=' _).start_le (reaches_skipBlank (readTarget (skipBlank after)).next).offset_le)
  exact equals.append ((runs_readDeclared _).start_le (reaches_skipBlank _).offset_le)

theorem runs_readSelector? {here : Cursor} {reading : Reading Placeholder}
    (found : readSelector? here = some reading) :
    ErrorsRun True here.offset reading.next.offset reading.errors := by
  simp only [readSelector?] at found
  split at found
  · obtain rfl := Option.some.inj found
    exact (runs_readPlaceholder _).start_le (reaches_skipBlank here).offset_le
  · cases found

theorem runs_readKey? {here : Cursor} {reading : Reading Key} (found : readKey? here = some reading) :
    ErrorsRun True here.offset reading.next.offset reading.errors := by
  have start := (reaches_skipBlank here).offset_le
  simp only [readKey?] at found
  split at found
  · cases found
  · split at found
    · obtain rfl := Option.some.inj found
      exact .nil (Nat.le_trans start (Text.Cursor.reaches_advance _).offset_le)
    · split at found
      · obtain rfl := Option.some.inj found
        exact (runs_readQuoted _).start_le start
      · split at found
        · obtain rfl := Option.some.inj found
          exact (runs_readWordToken _).start_le start
        · cases found

/-- The errors of a variant start behind the blanks before it, since one that is about the whole variant
starts with it. -/
theorem runs_readVariant? {selectorCount : Nat} {here : Cursor} {reading : Reading Variant}
    (found : readVariant? selectorCount here = some reading) :
    ErrorsRun True (skipBlank here).offset reading.next.offset reading.errors := by
  obtain ⟨after, keyword, rfl⟩ := Option.map_eq_some_iff.mp found
  have word := (advances_keyword? (by simp) keyword).1.offset_le
  have keys := (runs_many readKey?_progresses runs_readKey? after).start_le word
  have gap := reaches_skipBlank (many readKey? readKey?_progresses after).next
  simp only
  refine .append_covering (.malformed ⟨(skipBlank here).offset, _⟩) ?_ rfl ?_
  · refine ErrorsRun.append (keys.append (.single_if (Nat.le_refl _) (Nat.le_refl _))) ?_
    exact (runs_readVariantPattern _).start_le gap.offset_le
  · exact Nat.le_of_eq (readVariantPattern_span_stop _).symm

/-- Variants follow each other behind blanks, and what comes after them is looked for behind blanks, too. -/
theorem runs_variants (selectorCount : Nat) (here : Cursor) :
    let variants := many (readVariant? selectorCount) (readVariant?_progresses selectorCount) here
    ErrorsRun True (skipBlank here).offset (skipBlank variants.next).offset variants.errors := by
  intro variants
  simp only [variants]
  clear variants
  fun_induction many (readVariant? selectorCount) (readVariant?_progresses selectorCount) here with
  | case1 here nothing => exact .nil (Nat.le_refl _)
  | case2 here reading found more ih =>
    exact ((runs_readVariant? found).le_stop (reaches_skipBlank reading.next).offset_le).append ih

theorem runs_readSelect (here after : Cursor) :
    ErrorsRun True after.offset (skipBlank (readSelect here after).next).offset
      (readSelect here after).errors := by
  have selectors := runs_many readSelector?_progresses runs_readSelector? after
  have gap := reaches_skipBlank (many readSelector? readSelector?_progresses after).next
  refine ErrorsRun.append (.append (.append selectors ?_) (runs_variants _ _)) ?_
  · exact .single_if gap.offset_le (Nat.le_refl _)
  · exact .single_if (Nat.le_refl _) (Nat.le_refl _)

theorem runs_readBody (here : Cursor) :
    ErrorsRun True here.offset (skipBlank (readBody here).next).offset (readBody here).errors := by
  unfold readBody
  split
  · next after keyword =>
    exact (runs_readSelect here after).start_le (advances_keyword? (by simp) keyword).1.offset_le
  · split
    · exact (runs_readPattern here).le_stop (reaches_skipBlank _).offset_le
    · have behind := (reaches_end here).trans (reaches_skipBlank _)
      exact .single (Nat.le_refl _) behind.offset_le

/-- Of two errors of a template, the later one starts no earlier, or it is about a stretch that holds the
start of the earlier one. -/
theorem parseTemplate_errors_nest (source : List Char) :
    (parseTemplate source).2.Pairwise fun earlier later =>
      earlier.start ≤ later.start ∨ later.Covers earlier := by
  have declarations := runs_many readDeclaration?_progresses runs_readDeclaration?
    (Cursor.start source)
  have gap := reaches_skipBlank (many readDeclaration? readDeclaration?_progresses
    (Cursor.start source)).next
  have body := (runs_readBody (skipBlank _)).start_le gap.offset_le
  have trailing (place : Cursor) : ErrorsRun True place.offset place.offset
      (if place.rest = [] then [] else [.extraContent ⟨place.offset, place.endOffset⟩]) :=
    .ite (.nil (Nat.le_refl _)) (.single (Nat.le_refl _) (Nat.le_refl _))
  have run := (declarations.append body).append (trailing _)
  exact run.ordered.imp fun nested => nested.imp_right And.right

end templates

end Phrasebook.Syntax
