import Phrasebook.Proofs.Grammar.Recognition

namespace Phrasebook.Grammar

open Text (Cursor byteLength)
open Syntax

@[simp] theorem utf8Size_space : ' '.utf8Size = 1 := rfl

/-- A text that neither closes a placeholder nor, behind a blank, prolongs its content. -/
structure Garbage where
  first : Char
  others : List Char
  notBlank : isBlank first = false
  notNamed : isNameStart first = false
  notSigil : first ∉ [':', '+', '-']
  unclosed : '}' ∉ first :: others

namespace Garbage

def text (garbage : Garbage) : List Char := garbage.first :: garbage.others

/-- What stands behind the content of a placeholder with garbage in it. -/
def tail (after : Blanks) (garbage : Garbage) (rest : List Char) : Tail where
  blanks := after.append ⟨[' '], by simp [isBlank]⟩
  rest := garbage.text ++ '}' :: rest
  stops := by
    rw [Blanks.append_text, List.append_assoc]
    exact after.stops_isNameChar (stops_cons.mpr (by decide))
  blank := stops_cons.mpr garbage.notBlank
  option := stops_cons.mpr garbage.notNamed
  sigil := by
    intro c sigil
    refine stops_cons.mpr (beq_eq_false_iff_ne.mpr ?_)
    rintro rfl
    exact garbage.notSigil sigil

/-- A body that garbage follows is closed at the brace behind it, and the garbage is reported. -/
theorem closeBody_tail (garbage : Garbage) (here : Cursor) (body : PlaceholderBody) (after : Blanks)
    (rest : List Char) (offset : Nat) :
    let start := offset + byteLength after.text + 1
    let stop := start + byteLength garbage.text
    closeBody here body [] ⟨offset, (garbage.tail after rest).text⟩ =
      ⟨⟨⟨here.offset, stop + 1⟩, body⟩, [.extraContent ⟨start, stop⟩], ⟨stop + 1, rest⟩⟩ := by
  intro start stop
  have blanks : skipBlank ⟨offset, (garbage.tail after rest).text⟩ =
      ⟨start, garbage.text ++ '}' :: rest⟩ := by
    rw [Tail.skipBlank_text]
    simp [tail, start, Nat.add_assoc]
  have brace : closingBrace ⟨start, garbage.text ++ '}' :: rest⟩ = ⟨stop, '}' :: rest⟩ :=
    closingBrace_append garbage.unclosed rest start
  have present : 0 < byteLength garbage.text := byteLength_pos_iff.mpr (List.cons_ne_nil _ _)
  have apart : start ≠ stop := by omega
  simp only [closeBody, blanks, brace, if_neg apart]
  rfl

end Garbage

private theorem exists_placeholder_of_whole {text : List Char}
    (clean : (readPlaceholder ⟨0, '{' :: text⟩).errors = [])
    (whole : (readPlaceholder ⟨0, '{' :: text⟩).value.span.stop = byteLength ('{' :: text)) :
    ∃ placeholder : Placeholder, placeholder.text = '{' :: text := by
  obtain ⟨placeholder, passed⟩ := exists_placeholder rfl clean
  generalize (readPlaceholder ⟨0, '{' :: text⟩).next.rest = rest at passed
  replace passed : '{' :: text = placeholder.text ++ rest := passed
  rw [passed, readPlaceholder_append] at whole
  have ended : rest = [] := by
    by_contra more
    have size := byteLength_pos_iff.mpr more
    simp only [Placeholder.node, Text.byteLength_append] at whole
    omega
  exact ⟨placeholder, by rw [passed, ended, List.append_nil]⟩

/-- Garbage behind the content of a placeholder is all that is reported, and the tree stays. -/
theorem readPlaceholder_garbage (placeholder : Placeholder) (garbage : Garbage) (rest : List Char)
    (offset : Nat) :
    let inside := placeholder.before.text ++ (placeholder.content.text ++ placeholder.after.text)
    let start := offset + byteLength ('{' :: (inside ++ [' ']))
    let stop := start + byteLength garbage.text
    readPlaceholder ⟨offset, '{' :: (inside ++ ' ' :: (garbage.text ++ '}' :: rest))⟩ =
      ⟨⟨⟨offset, stop + 1⟩, (placeholder.node offset).body⟩, [.extraContent ⟨start, stop⟩],
        ⟨stop + 1, rest⟩⟩ := by
  obtain ⟨before, content, after⟩ := placeholder
  intro inside start stop
  have shape : inside ++ ' ' :: (garbage.text ++ '}' :: rest) =
      before.text ++ (content.text ++ (garbage.tail after rest).text) := by
    simp [inside, Tail.text, Garbage.tail]
  have read := readPlaceholder_content before content (garbage.tail after rest)
    (show Cursor.rest ⟨offset, _⟩ = '{' :: _ from rfl)
  rw [shape, read, garbage.closeBody_tail]
  have place : offset + 1 + byteLength before.text + byteLength content.text +
      byteLength after.text + 1 = start := by
    simp [start, inside]
    omega
  rw [place]
  rfl

/-- Let the text of a placeholder be read up to its end without an error. With a blank and garbage
before its closing brace, its body is read as before, with the same spans. The one error is that the
garbage, up to the brace, is extra content. -/
theorem parsePlaceholder_trailing (inside : List Char) (garbage : Garbage)
    (clean : (parsePlaceholder ('{' :: (inside ++ ['}'])) 0).2 = [])
    (whole : (parsePlaceholder ('{' :: (inside ++ ['}'])) 0).1.span.stop =
      byteLength ('{' :: (inside ++ ['}']))) :
    let source := '{' :: (inside ++ ' ' :: (garbage.text ++ ['}']))
    let start := byteLength ('{' :: (inside ++ [' ']))
    parsePlaceholder source 0 =
      (⟨⟨0, byteLength source⟩, (parsePlaceholder ('{' :: (inside ++ ['}'])) 0).1.body⟩,
        [.extraContent ⟨start, start + byteLength garbage.text⟩]) := by
  intro source start
  have read (text : List Char) : parsePlaceholder ('{' :: text) 0 =
      ((readPlaceholder ⟨0, '{' :: text⟩).value, (readPlaceholder ⟨0, '{' :: text⟩).errors) :=
    parsePlaceholder_brace [] text
  rw [read] at clean whole
  obtain ⟨placeholder, derived⟩ := exists_placeholder_of_whole clean whole
  have alone := readPlaceholder_append placeholder [] 0
  rw [List.append_nil, derived] at alone
  have content : inside =
      placeholder.before.text ++ (placeholder.content.text ++ placeholder.after.text) := by
    simpa [Placeholder.text, ← List.append_assoc] using derived.symm
  have reads := readPlaceholder_garbage placeholder garbage [] 0
  rw [← content] at reads
  have size : byteLength source = start + byteLength garbage.text + 1 := by
    simp [source, start]
    omega
  rw [read, read, alone, reads, size, Nat.zero_add]

/-- A call whose last option holds a brace, and a bar and a variable behind it. -/
theorem parsePlaceholder_trailing_call :
    let text := "\x7b$n :f a=|\x7d|\x7d".toList
    let longer := "\x7b$n :f a=|\x7d| |$x\x7d".toList
    (parsePlaceholder text 0).2 = [] ∧ (parsePlaceholder text 0).1.span.stop = 13 ∧
      parsePlaceholder longer 0 =
        (⟨⟨0, 17⟩, (parsePlaceholder text 0).1.body⟩, [.extraContent ⟨13, 16⟩]) := by
  intro text longer
  let inside := "$n :f a=|\x7d|".toList
  let garbage : Garbage := ⟨'|', ['$', 'x'], by decide, by decide, by decide, by decide⟩
  have short : '{' :: (inside ++ ['}']) = text := by decide
  have long : '{' :: (inside ++ ' ' :: (garbage.text ++ ['}'])) = longer := by decide
  have sizes : byteLength text = 13 ∧ byteLength longer = 17 ∧
      byteLength ('{' :: (inside ++ [' '])) = 13 ∧ byteLength garbage.text = 3 := by decide
  have clean : (parsePlaceholder text 0).2 = [] := by decide +kernel
  have whole : (parsePlaceholder text 0).1.span.stop = 13 := by decide +kernel
  have reads := parsePlaceholder_trailing inside garbage (short ▸ clean)
    (by rw [short, sizes.1]; exact whole)
  simp only [short, long, sizes] at reads
  exact ⟨clean, whole, reads⟩

end Phrasebook.Grammar
