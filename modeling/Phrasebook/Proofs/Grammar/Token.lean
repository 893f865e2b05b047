import Phrasebook.Syntax.Token

/-!
The tokens of the template grammar as derivations. A token carries the text that spells it, and its
fields are proofs that the grammar allows that text. Where the text after a token cannot prolong it,
reading gives the token back; where reading reports nothing, what it passed spells a token.
-/

namespace Phrasebook.Grammar

open Text (Cursor byteLength)
open Syntax

/-- A run of blanks, which may be empty. -/
structure Blanks where
  text : List Char
  blank : ∀ c ∈ text, isBlank c = true

/-- No blanks. -/
def Blanks.empty : Blanks := ⟨[], List.forall_mem_nil _⟩

@[simp] theorem Blanks.empty_text : Blanks.empty.text = [] := rfl

/-- Two runs of blanks that follow each other are one. -/
def Blanks.append (first second : Blanks) : Blanks where
  text := first.text ++ second.text
  blank := by simpa [or_imp, forall_and] using ⟨first.blank, second.blank⟩

@[simp] theorem Blanks.append_text (first second : Blanks) :
    (first.append second).text = first.text ++ second.text := rfl

/-- A run of at least one blank. -/
structure Gap extends Blanks where
  nonempty : text ≠ []

/-- A letter or an underscore, and name characters after it. -/
structure Name where
  first : Char
  others : List Char
  starts : isNameStart first = true
  continues : ∀ c ∈ others, isNameChar c = true

def Name.text (name : Name) : List Char := name.first :: name.others

/-- A run of at least one name character. -/
structure Word where
  text : List Char
  nonempty : text ≠ []
  continues : ∀ c ∈ text, isNameChar c = true

/-- A character of a text in which some characters are reserved: a reserved one is written after a
backslash, any other as it is. -/
inductive Escaped (reserved : List Char) where
  | plain (c : Char) (free : c ∉ reserved)
  | escape (c : Char) (member : c ∈ reserved)

namespace Escaped

def text : Escaped reserved → List Char
  | .plain c _ => [c]
  | .escape c _ => ['\\', c]

def value : Escaped reserved → Char
  | .plain c _ => c
  | .escape c _ => c

/-- How a text is written. -/
def spelling (items : List (Escaped reserved)) : List Char := items.flatMap text

/-- The text itself. -/
def meaning (items : List (Escaped reserved)) : List Char := items.map value

@[simp] theorem spelling_nil : spelling ([] : List (Escaped reserved)) = [] := rfl

@[simp] theorem spelling_cons (item : Escaped reserved) (items : List (Escaped reserved)) :
    spelling (item :: items) = item.text ++ spelling items := rfl

@[simp] theorem spelling_append (first second : List (Escaped reserved)) :
    spelling (first ++ second) = spelling first ++ spelling second := by
  simp [spelling]

@[simp] theorem meaning_nil : meaning ([] : List (Escaped reserved)) = [] := rfl

@[simp] theorem meaning_cons (item : Escaped reserved) (items : List (Escaped reserved)) :
    meaning (item :: items) = item.value :: meaning items := rfl

@[simp] theorem meaning_append (first second : List (Escaped reserved)) :
    meaning (first ++ second) = meaning first ++ meaning second := by
  simp [meaning]

end Escaped

/-- Quoted text: a bar and a backslash in it are escaped. -/
structure Quotation where
  items : List (Escaped ['\\', '|'])

namespace Quotation

def text (quotation : Quotation) : List Char := '|' :: Escaped.spelling quotation.items ++ ['|']

def value (quotation : Quotation) : List Char := Escaped.meaning quotation.items

end Quotation

/-- A variable: its name after a dollar sign. -/
structure Variable where
  name : Name

def Variable.text (binding : Variable) : List Char := '$' :: binding.name.text

/-- The text does not start with a character that satisfies the test, so a run of such characters
ends before it. -/
def Stops (test : Char → Bool) (rest : List Char) : Prop := ∀ c ∈ rest.head?, test c = false

@[simp] theorem stops_nil (test : Char → Bool) : Stops test [] := by simp [Stops]

@[simp] theorem stops_cons {test : Char → Bool} {c : Char} {rest : List Char} :
    Stops test (c :: rest) ↔ test c = false := by simp [Stops]

section places

/-- The characters that the grammar gives a meaning take one byte each. -/
@[simp] theorem utf8Size_sigil {c : Char}
    (sigil : c ∈ ['\\', '|', '$', ':', '+', '-', '=', '*', '{', '}']) : c.utf8Size = 1 := by
  simp only [List.mem_cons, List.not_mem_nil, or_false] at sigil
  rcases sigil with rfl | rfl | rfl | rfl | rfl | rfl | rfl | rfl | rfl | rfl <;> rfl

@[simp] theorem follows_cons (test : Char → Bool) (offset : Nat) (c : Char) (rest : List Char) :
    Cursor.follows test ⟨offset, c :: rest⟩ = test c := rfl

@[simp] theorem isAt_cons (c d : Char) (offset : Nat) (rest : List Char) :
    Cursor.isAt c ⟨offset, d :: rest⟩ = (d == c) := rfl

@[simp] theorem advance_cons (offset : Nat) (c : Char) (rest : List Char) :
    Cursor.advance ⟨offset, c :: rest⟩ = ⟨offset + c.utf8Size, rest⟩ := rfl

theorem follows_of_stops {test : Char → Bool} {rest : List Char} (stop : Stops test rest)
    (offset : Nat) : Cursor.follows test ⟨offset, rest⟩ = false := by
  cases rest with
  | nil => rfl
  | cons c rest => exact stops_cons.mp stop

theorem rest_eq_of_isAt {c : Char} {here : Cursor} (next : here.isAt c = true) :
    here.rest = c :: here.advance.rest := by
  obtain ⟨offset, rest⟩ := here
  cases rest with
  | nil => simp [Cursor.isAt, Cursor.follows] at next
  | cons d rest =>
    have same : d = c := by simpa using next
    rw [same]
    rfl

theorem advance_offset_of_isAt {c : Char} {here : Cursor} (next : here.isAt c = true) :
    here.advance.offset = here.offset + c.utf8Size := by
  obtain ⟨offset, rest⟩ := here
  cases rest with
  | nil => cases next
  | cons d rest =>
    obtain rfl : d = c := by simpa using next
    rfl

theorem skipWhile_append {test : Char → Bool} {run rest : List Char}
    (all : ∀ c ∈ run, test c = true) (stop : Stops test rest) (offset : Nat) :
    Cursor.skipWhile test ⟨offset, run ++ rest⟩ = ⟨offset + byteLength run, rest⟩ := by
  have kept : rest.takeWhile test = [] ∧ rest.dropWhile test = rest := by
    cases rest with
    | nil => simp
    | cons c rest => simp [stops_cons.mp stop]
  simp [Cursor.skipWhile, List.takeWhile_append_of_pos all, List.dropWhile_append_of_pos all, kept]

private theorem skipWhile_of_stops {test : Char → Bool} {rest : List Char} (stop : Stops test rest)
    (offset : Nat) : Cursor.skipWhile test ⟨offset, rest⟩ = ⟨offset, rest⟩ := by
  simpa using skipWhile_append (List.forall_mem_nil _) stop offset

theorem skipWhile_split (test : Char → Bool) (here : Cursor) :
    ∃ run : List Char, (∀ c ∈ run, test c = true) ∧
      here.rest = run ++ (here.skipWhile test).rest ∧ Stops test (here.skipWhile test).rest := by
  refine ⟨here.rest.takeWhile test, List.all_eq_true.mp List.all_takeWhile, ?_, ?_⟩
  · simp [Cursor.skipWhile]
  · intro c first
    have shape := List.head?_dropWhile_not test here.rest
    rw [Cursor.skipWhile] at first
    simp only [Option.mem_def] at first
    simpa [first] using shape

end places

section blanks

theorem not_isNameChar_of_isBlank {c : Char} (blank : isBlank c = true) : isNameChar c = false := by
  simp only [isBlank, Bool.or_eq_true, beq_iff_eq] at blank
  rcases blank with ((rfl | rfl) | rfl) | rfl <;> decide

theorem not_isBlank_of_isNameChar {c : Char} (named : isNameChar c = true) : isBlank c = false := by
  cases blank : isBlank c with
  | false => rfl
  | true => simp [not_isNameChar_of_isBlank blank] at named

theorem Blanks.stops_isNameChar (blanks : Blanks) {rest : List Char} (stop : Stops isNameChar rest) :
    Stops isNameChar (blanks.text ++ rest) := by
  obtain ⟨text, blank⟩ := blanks
  cases text with
  | nil => exact stop
  | cons c text => simp [not_isNameChar_of_isBlank (blank c (by simp))]

theorem Gap.stops_isNameChar (gap : Gap) (rest : List Char) : Stops isNameChar (gap.text ++ rest) := by
  obtain ⟨⟨text, blank⟩, nonempty⟩ := gap
  cases text with
  | nil => exact absurd rfl nonempty
  | cons c text => simp [not_isNameChar_of_isBlank (blank c (by simp))]

theorem Gap.follows_isBlank (gap : Gap) (rest : List Char) (offset : Nat) :
    Cursor.follows isBlank ⟨offset, gap.text ++ rest⟩ = true := by
  obtain ⟨⟨text, blank⟩, nonempty⟩ := gap
  cases text with
  | nil => exact absurd rfl nonempty
  | cons c text => simp [blank c (by simp)]

theorem skipBlank_append (blanks : Blanks) {rest : List Char} (stop : Stops isBlank rest)
    (offset : Nat) :
    skipBlank ⟨offset, blanks.text ++ rest⟩ = ⟨offset + byteLength blanks.text, rest⟩ :=
  skipWhile_append blanks.blank stop offset

theorem skipBlank_of_stops {rest : List Char} (stop : Stops isBlank rest) (offset : Nat) :
    skipBlank ⟨offset, rest⟩ = ⟨offset, rest⟩ :=
  skipWhile_of_stops stop offset

theorem exists_blanks (here : Cursor) :
    ∃ blanks : Blanks, here.rest = blanks.text ++ (skipBlank here).rest := by
  obtain ⟨run, blank, split, -⟩ := skipWhile_split isBlank here
  exact ⟨⟨run, blank⟩, split⟩

theorem exists_gap {here : Cursor} (present : here.follows isBlank = true) :
    ∃ gap : Gap, here.rest = gap.text ++ (skipBlank here).rest := by
  obtain ⟨blanks, split⟩ := exists_blanks here
  refine ⟨⟨blanks, ?_⟩, split⟩
  intro empty
  have shorter := (Text.Cursor.advances_skipWhile present).2
  rw [empty, List.nil_append] at split
  rw [split] at shorter
  exact Nat.lt_irrefl _ shorter

end blanks

section names

theorem Name.isNameChar_of_mem (name : Name) : ∀ c ∈ name.text, isNameChar c = true := by
  intro c member
  rcases List.mem_cons.mp member with first | other
  · rw [first]
    exact isNameChar_of_isNameStart name.starts
  · exact name.continues c other

theorem Name.stops_isBlank (name : Name) (rest : List Char) : Stops isBlank (name.text ++ rest) := by
  have first := name.isNameChar_of_mem name.first (by simp [Name.text])
  simp [Name.text, not_isBlank_of_isNameChar first]

theorem Name.follows_isNameStart (name : Name) (rest : List Char) (offset : Nat) :
    Cursor.follows isNameStart ⟨offset, name.text ++ rest⟩ = true := name.starts

theorem readWord_append {run rest : List Char} (all : ∀ c ∈ run, isNameChar c = true)
    (stop : Stops isNameChar rest) (offset : Nat) :
    readWord ⟨offset, run ++ rest⟩ = ⟨String.ofList run, [], ⟨offset + byteLength run, rest⟩⟩ := by
  have skipped := skipWhile_append all stop offset
  have taken : rest.takeWhile isNameChar = [] := by
    cases rest with
    | nil => rfl
    | cons c rest => simp [stops_cons.mp stop]
  simp [readWord, skipped, List.takeWhile_append_of_pos all, taken]

theorem readName_append (name : Name) {rest : List Char} (stop : Stops isNameChar rest)
    (offset : Nat) :
    readName ⟨offset, name.text ++ rest⟩ =
      ⟨String.ofList name.text, [], ⟨offset + byteLength name.text, rest⟩⟩ := by
  rw [readName, if_pos (name.follows_isNameStart rest offset),
    readWord_append name.isNameChar_of_mem stop offset]

private theorem readWord_split (here : Cursor) :
    ∃ run : List Char, (∀ c ∈ run, isNameChar c = true) ∧
      here.rest = run ++ (readWord here).next.rest := by
  obtain ⟨run, all, split, -⟩ := skipWhile_split isNameChar here
  exact ⟨run, all, split⟩

theorem exists_word {here : Cursor} (present : here.follows isNameChar = true) :
    ∃ word : Word, here.rest = word.text ++ (readWord here).next.rest := by
  obtain ⟨run, all, split⟩ := readWord_split here
  refine ⟨⟨run, ?_, all⟩, split⟩
  rintro rfl
  have shorter := (advances_readWord present).2
  rw [List.nil_append] at split
  rw [split] at shorter
  exact Nat.lt_irrefl _ shorter

theorem exists_name {here : Cursor} (present : here.follows isNameStart = true) :
    ∃ name : Name, here.rest = name.text ++ (readWord here).next.rest := by
  obtain ⟨⟨run, nonempty, all⟩, split⟩ := exists_word (follows_isNameChar present)
  obtain ⟨offset, rest⟩ := here
  cases run with
  | nil => exact absurd rfl nonempty
  | cons c run =>
    have starts : isNameStart c = true := by
      dsimp only at split
      rw [split] at present
      exact present
    exact ⟨⟨c, run, starts, fun d member => all d (by simp [member])⟩, split⟩

theorem exists_name_of_readName {here : Cursor} (clean : (readName here).errors = []) :
    ∃ name : Name, here.rest = name.text ++ (readName here).next.rest := by
  unfold readName at clean ⊢
  split at clean
  · next present =>
    rw [if_pos present]
    exact exists_name present
  · cases clean

theorem readVariable_append (binding : Variable) {rest : List Char} (stop : Stops isNameChar rest)
    (offset : Nat) :
    readVariable ⟨offset, binding.text ++ rest⟩ =
      ⟨⟨⟨offset, offset + byteLength binding.text⟩, String.ofList binding.name.text⟩, [],
        ⟨offset + byteLength binding.text, rest⟩⟩ := by
  have size : offset + byteLength binding.text =
      offset + '$'.utf8Size + byteLength binding.name.text := by
    simp [Variable.text, Nat.add_assoc]
  rw [size]
  simp only [readVariable, Variable.text, List.cons_append, advance_cons,
    readName_append binding.name stop]

theorem exists_variable {here : Cursor} (sigil : here.isAt '$' = true)
    (clean : (readVariable here).errors = []) :
    ∃ binding : Variable, here.rest = binding.text ++ (readVariable here).next.rest := by
  obtain ⟨name, split⟩ := exists_name_of_readName clean
  refine ⟨⟨name⟩, ?_⟩
  rw [rest_eq_of_isAt sigil, split]
  rfl

end names

section quotations

private theorem quotedText_append (items : List (Escaped ['\\', '|'])) (rest : List Char) (offset : Nat) :
    quotedText offset (Escaped.spelling items ++ '|' :: rest) =
      ⟨Escaped.meaning items, [], ⟨offset + byteLength (Escaped.spelling items) + 1, rest⟩⟩ := by
  induction items generalizing offset with
  | nil => simp [quotedText]
  | cons item items ih =>
    cases item with
    | plain c free =>
      have ordinary : c ≠ '\\' ∧ c ≠ '|' := by simpa using free
      rw [Escaped.spelling_cons, Escaped.text, List.singleton_append, List.cons_append, quotedText,
        ih]
      · simp [Reading.map, Escaped.value, Nat.add_assoc]
      all_goals simp [ordinary]
    | escape c member =>
      have either : c = '\\' ∨ c = '|' := by simpa using member
      rcases either with rfl | rfl
      · simp [Escaped.text, quotedText, ih, Reading.map, Escaped.value]
        omega
      · simp [Escaped.text, quotedText, ih, Reading.map, Escaped.value]
        omega

/-- Quoted text without an error ends at a bar, and before it every bar and backslash is escaped. -/
theorem exists_items_of_quotedText {offset : Nat} {text : List Char}
    (clean : (quotedText offset text).errors = []) :
    ∃ items : List (Escaped ['\\', '|']),
      text = Escaped.spelling items ++ '|' :: (quotedText offset text).next.rest := by
  fun_induction quotedText offset text with
  | case1 offset => cases clean
  | case2 offset rest => exact ⟨[], rfl⟩
  | case3 offset rest ih =>
    obtain ⟨items, split⟩ := ih clean
    exact ⟨.escape '|' (by simp) :: items, by simpa [Escaped.text] using split⟩
  | case4 offset rest ih =>
    obtain ⟨items, split⟩ := ih clean
    exact ⟨.escape '\\' (by simp) :: items, by simpa [Escaped.text] using split⟩
  | case5 offset rest _ _ more ih => cases clean
  | case6 offset c rest notBar _ _ notBackslash ih =>
    obtain ⟨items, split⟩ := ih clean
    have free : c ∉ ['\\', '|'] := by
      intro member
      rcases List.mem_cons.mp member with same | other
      · exact notBackslash same
      · exact notBar (List.mem_singleton.mp other)
    exact ⟨.plain c free :: items, by simpa [Escaped.text] using split⟩

theorem readQuoted_append (quotation : Quotation) (rest : List Char) (offset : Nat) :
    readQuoted ⟨offset, quotation.text ++ rest⟩ =
      ⟨⟨⟨offset, offset + byteLength quotation.text⟩, String.ofList quotation.value⟩, [],
        ⟨offset + byteLength quotation.text, rest⟩⟩ := by
  have size : offset + byteLength quotation.text =
      offset + 1 + byteLength (Escaped.spelling quotation.items) + 1 := by
    simp [Quotation.text]
    omega
  rw [size]
  simp [readQuoted, Quotation.text, Quotation.value, quotedText_append]

theorem exists_quotation {here : Cursor} (bar : here.isAt '|' = true)
    (clean : (readQuoted here).errors = []) :
    ∃ quotation : Quotation, here.rest = quotation.text ++ (readQuoted here).next.rest := by
  obtain ⟨items, split⟩ := exists_items_of_quotedText clean
  refine ⟨⟨items⟩, ?_⟩
  rw [rest_eq_of_isAt bar, split]
  simp [Quotation.text, readQuoted]

end quotations

end Phrasebook.Grammar
