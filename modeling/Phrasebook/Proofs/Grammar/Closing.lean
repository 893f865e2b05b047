import Phrasebook.Proofs.Grammar.Order

namespace Phrasebook.Syntax

open Text (Cursor byteLength)
open Text.Cursor (Reaches Within)

section inside

/-- No error says that a closing brace is missing. -/
def NoBraceMissing (errors : List Error) : Prop := ∀ error ∈ errors, error.char? ≠ some '}'

namespace NoBraceMissing

variable {errors others : List Error} {error : Error}

theorem nil : NoBraceMissing [] := List.forall_mem_nil _

theorem cons (other : error.char? ≠ some '}') (rest : NoBraceMissing errors) :
    NoBraceMissing (error :: errors) := List.forall_mem_cons.mpr ⟨other, rest⟩

theorem single (other : error.char? ≠ some '}') : NoBraceMissing [error] := .cons other .nil

theorem append (first : NoBraceMissing errors) (second : NoBraceMissing others) :
    NoBraceMissing (errors ++ others) := List.forall_mem_append.mpr ⟨first, second⟩

theorem ite {condition : Prop} [Decidable condition] (first : NoBraceMissing errors)
    (second : NoBraceMissing others) : NoBraceMissing (if condition then errors else others) := by
  split
  · exact first
  · exact second

end NoBraceMissing

theorem noBraceMissing_readName (here : Cursor) : NoBraceMissing (readName here).errors := by
  unfold readName
  split
  · exact .nil
  · exact .single (by simp [Error.char?])

theorem noBraceMissing_quotedText (offset : Nat) (text : List Char) :
    NoBraceMissing (quotedText offset text).errors := by
  fun_induction quotedText offset text with
  | case1 offset => exact .single (by simp [Error.char?])
  | case2 offset rest => exact .nil
  | case3 offset rest ih => exact ih
  | case4 offset rest ih => exact ih
  | case5 offset rest _ _ more ih => exact .cons (by simp [Error.char?]) ih
  | case6 offset c rest _ _ _ _ ih => exact ih

theorem noBraceMissing_readOperand (here : Cursor) : NoBraceMissing (readOperand here).errors := by
  unfold readOperand
  split
  · exact noBraceMissing_quotedText _ _
  · split
    · exact noBraceMissing_readName _
    · exact .nil

theorem noBraceMissing_readOptionValue (here : Cursor) :
    NoBraceMissing (readOptionValue here).errors := by
  unfold readOptionValue
  split
  · exact noBraceMissing_quotedText _ _
  · split
    · exact noBraceMissing_readName _
    · exact .ite .nil (.single (by simp [Error.char?]))

theorem noBraceMissing_readOption? {here : Cursor} {reading : Reading OptionEntry}
    (found : readOption? here = some reading) : NoBraceMissing reading.errors := by
  simp only [readOption?] at found
  split at found
  · obtain rfl := Option.some.inj found
    refine .append ?_ (noBraceMissing_readOptionValue _)
    unfold expect
    split
    · exact .nil
    · exact .single (by simp [Error.char?])
  · cases found

theorem noBraceMissing_readSignature (here : Cursor) :
    NoBraceMissing (readSignature here).errors := by
  refine .append (noBraceMissing_readName here) ?_
  fun_induction many readOption? readOption?_progresses (readName here).next with
  | case1 here nothing => exact .nil
  | case2 here reading found more ih => exact .append (noBraceMissing_readOption? found) ih

theorem noBraceMissing_optionErrors (options : List OptionEntry) :
    NoBraceMissing (optionErrors options) := by
  unfold optionErrors
  split
  · exact .single (by simp [Error.char?])
  · exact .nil

end inside

section endings

/-- The reading of a placeholder ends at a place: behind the closing brace there, or at the end of the
source, where the brace is missing. Nothing before reports a missing brace, and the body ends there at
the latest. -/
structure Reading.EndsAt (brace : Cursor) (reading : Reading Placeholder) : Prop where
  found : brace.isAt '}' = true ∨ brace.rest = []
  errors : ∃ others, NoBraceMissing others ∧ reading.errors = others ++ (expect '}' brace).errors
  next : reading.next = (expect '}' brace).next
  stop : reading.value.span.stop = reading.next.offset
  body : reading.value.body.span.stop ≤ brace.offset

theorem closingBrace_found (here : Cursor) :
    (closingBrace here).isAt '}' = true ∨ (closingBrace here).rest = [] := by
  obtain ⟨run, -, -, stop⟩ := Grammar.skipWhile_split (· != '}') here
  cases rest : (closingBrace here).rest with
  | nil => exact .inr rfl
  | cons c text =>
    have brace := stop c (by rw [closingBrace] at rest; simp [rest])
    left
    simpa [Cursor.isAt, Cursor.follows, rest] using brace

private theorem readOperand_span_stop {here : Cursor} {node : Operand}
    (found : (readOperand here).value = some node) :
    node.span.stop = (readOperand here).next.offset := by
  unfold readOperand at found ⊢
  split
  · next bar =>
    rw [if_pos bar] at found
    obtain rfl := Option.some.inj found
    rfl
  · next noBar =>
    rw [if_neg noBar] at found
    split
    · next sigil =>
      rw [if_pos sigil] at found
      obtain rfl := Option.some.inj found
      rfl
    · next noSigil =>
      rw [if_neg noSigil] at found
      cases found

theorem closeBody_endsAt {here after : Cursor} {body : PlaceholderBody} {errors : List Error}
    (clean : NoBraceMissing errors) (inside : body.span.stop ≤ after.offset) :
    (closeBody here body errors after).EndsAt (closingBrace (skipBlank after)) where
  found := closingBrace_found _
  errors := ⟨_, clean.append (.ite .nil (.single (by simp [Error.char?]))), rfl⟩
  next := rfl
  stop := rfl
  body := by
    have skipped := (reaches_skipBlank after).trans (reaches_closingBrace _)
    exact Nat.le_trans inside skipped.offset_le

theorem closeJunk_endsAt (here start : Cursor) :
    ∃ brace, Reaches start brace ∧ (closeJunk here start).EndsAt brace := by
  have first := reaches_junk_first start
  have skipped := (reaches_skipBlank (if start.isAt '}' then start else start.advance)).trans
    (reaches_closingBrace _)
  refine ⟨_, first.trans skipped, closingBrace_found _, ?_, rfl, rfl, ?_⟩
  · exact ⟨_, .single (by simp [Error.char?]), rfl⟩
  · simp only [closeJunk, PlaceholderBody.span]
    generalize (if start.isAt '}' then start else start.advance) = junk at skipped ⊢
    split
    · exact skipped.offset_le
    · exact Nat.le_refl _

/-- The brace lies behind the place where a sigil would stand. -/
theorem readPlaceholder_endsAt (here : Cursor) :
    ∃ brace, Reaches (skipBlank (readOperand (skipBlank here.advance)).next) brace ∧
      (readPlaceholder here).EndsAt brace := by
  have signature := (Text.Cursor.reaches_advance _).trans <|
    (reaches_readSignature (skipBlank (readOperand (skipBlank here.advance)).next).advance).trans <|
      (reaches_skipBlank _).trans (reaches_closingBrace _)
  have operandClean := noBraceMissing_readOperand (skipBlank here.advance)
  have signatureClean := noBraceMissing_readSignature
    (skipBlank (readOperand (skipBlank here.advance)).next).advance
  have dropped : NoBraceMissing ((readOperand (skipBlank here.advance)).value.toList.map
      fun node => .extraContent node.span) := by
    intro error member
    obtain ⟨node, -, rfl⟩ := List.mem_map.mp member
    simp [Error.char?]
  have operandEnd {node : Operand} (found : (readOperand (skipBlank here.advance)).value = some node) :=
    Nat.le_of_eq (readOperand_span_stop found)
  unfold readPlaceholder
  simp only
  split
  · exact ⟨_, signature, closeBody_endsAt (operandClean.append signatureClean) (Nat.le_refl _)⟩
  · split
    · exact ⟨_, signature,
        closeBody_endsAt ((dropped.append operandClean).append signatureClean) (Nat.le_refl _)⟩
    · split
      · exact ⟨_, signature, closeBody_endsAt (((dropped.append operandClean).append
          signatureClean).append (noBraceMissing_optionErrors _)) (Nat.le_refl _)⟩
      · split
        · next token found =>
          exact ⟨_, reaches_closingBrace _, closeBody_endsAt operandClean (operandEnd found)⟩
        · next token found =>
          exact ⟨_, reaches_closingBrace _, closeBody_endsAt operandClean (operandEnd found)⟩
        · exact closeJunk_endsAt here _

end endings

section sources

theorem reaches_sigil (here : Cursor) :
    Reaches here (skipBlank (readOperand (skipBlank here.advance)).next) :=
  (Text.Cursor.reaches_advance here).trans <| (reaches_skipBlank _).trans <|
    (reaches_readOperand _).trans (reaches_skipBlank _)

/-- The placeholder ends with its closing brace, its body before that, and no error misses the brace. -/
structure Placeholder.Closed (source : List Char) (node : Placeholder) (errors : List Error) :
    Prop where
  reported : ∀ error ∈ errors, error.char? ≠ some '}'
  brace : Text.slice? source (node.span.stop - 1) node.span.stop = some ['}']
  body : node.body.span.stop ≤ node.span.stop - 1

/-- The placeholder is cut off by the end of the source. One error misses the brace, at that end, and it is
the last error. -/
structure Placeholder.Truncated (source : List Char) (node : Placeholder) (errors : List Error) :
    Prop where
  once : errors.countP (fun error => error.char? = some '}') = 1
  last : errors.getLast? = some (.missingChar (byteLength source) '}')
  stop : node.span.stop = byteLength source

variable {source : List Char} {brace : Cursor} {reading : Reading Placeholder}

private theorem Reading.EndsAt.closed (ends : reading.EndsAt brace) (place : Within source brace)
    (found : brace.isAt '}' = true) : reading.value.Closed source reading.errors := by
  obtain ⟨others, clean, split⟩ := ends.errors
  have read : expect '}' brace = ⟨(), [], brace.advance⟩ := if_pos found
  have stop : reading.value.span.stop = brace.advance.offset := by rw [ends.stop, ends.next, read]
  have size : brace.advance.offset = brace.offset + 1 := Grammar.advance_offset_of_isAt found
  constructor
  · rw [split, read, List.append_nil]
    exact clean
  · rw [stop, size, Nat.add_sub_cancel]
    exact place.slice?_of_isAt found
  · rw [stop, size]
    exact ends.body

private theorem Reading.EndsAt.truncated (ends : reading.EndsAt brace) (place : Within source brace)
    (missing : brace.rest = []) : reading.value.Truncated source reading.errors := by
  obtain ⟨others, clean, split⟩ := ends.errors
  have offset := place.offset_of_rest_nil missing
  have read : expect '}' brace = ⟨(), [.missingChar (byteLength source) '}'], brace⟩ := by
    simp [expect, Cursor.isAt, Cursor.follows, missing, offset]
  have before : others.countP (fun error => error.char? = some '}') = 0 := by
    apply List.countP_eq_zero.mpr
    intro error member
    simpa using clean error member
  constructor
  · rw [split, read, List.countP_append, before]
    rfl
  · rw [split, read]
    exact List.getLast?_concat
  · rw [ends.stop, ends.next, read, offset]

/-- Wherever a brace opens in a source, its placeholder is either closed or truncated, never both, and it
is truncated if no closing brace follows. -/
theorem parsePlaceholder_closed_or_truncated (before after : List Char) :
    let source := before ++ '{' :: after
    let parsed := parsePlaceholder source (byteLength before)
    let closed := parsed.1.Closed source parsed.2
    let truncated := parsed.1.Truncated source parsed.2
    ((closed ∧ ¬ truncated) ∨ (truncated ∧ ¬ closed)) ∧ ('}' ∉ after → truncated) := by
  intro source parsed closed truncated
  have place := Within.of_append before ('{' :: after)
  obtain ⟨brace, behind, ends⟩ := readPlaceholder_endsAt ⟨byteLength before, '{' :: after⟩
  have reach := (reaches_sigil ⟨byteLength before, '{' :: after⟩).trans behind
  have apart : closed → ¬ truncated := by
    intro closes cut
    exact closes.reported _ (List.mem_of_getLast? cut.last) rfl
  have reads := Grammar.parsePlaceholder_brace before after
  rcases ends.found with found | missing
  · have closes : closed := by
      simp only [closed, parsed, source, reads]
      exact ends.closed (place.trans reach) found
    refine ⟨.inl ⟨closes, apart closes⟩, ?_⟩
    intro absent
    obtain ⟨passed, text, -⟩ := reach
    have member : '}' ∈ '{' :: after := by
      dsimp only at text
      rw [text, Grammar.rest_eq_of_isAt found]
      simp
    simp [absent] at member
  · have cut : truncated := by
      simp only [truncated, parsed, source, reads]
      exact ends.truncated (place.trans reach) missing
    exact ⟨.inr ⟨cut, fun closes => apart closes cut⟩, fun _ => cut⟩

/-- Behind a letter of two bytes, a call whose option has an endless quotation. -/
theorem parsePlaceholder_truncated_quotation :
    let source := "é\x7b:f a=|b".toList
    '}' ∉ ":f a=|b".toList ∧
      (parsePlaceholder source 2).1.Truncated source (parsePlaceholder source 2).2 := by
  have absent : '}' ∉ ":f a=|b".toList := by decide
  exact ⟨absent, (parsePlaceholder_closed_or_truncated ['é'] ":f a=|b".toList).2 absent⟩

end sources

end Phrasebook.Syntax
