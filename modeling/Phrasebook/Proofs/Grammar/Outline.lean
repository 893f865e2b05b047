import Phrasebook.Proofs.Grammar.Acceptance
import Phrasebook.Syntax.Template

namespace Phrasebook.Text

/-- The offset lies between two characters of the text, or at one of its ends. -/
def IsBoundary (text : List Char) (offset : Nat) : Prop :=
  ∃ before after, text = before ++ after ∧ byteLength before = offset

/-- A slice from an offset on fails out of range and inside a character, and nowhere else. -/
theorem isSome_sliceFrom?_iff {text : List Char} {offset : Nat} :
    (sliceFrom? text offset).isSome ↔ IsBoundary text offset := by
  rw [sliceFrom?, Option.isSome_map]
  constructor
  · intro cut
    obtain ⟨parts, cut⟩ := Option.isSome_iff_exists.mp cut
    exact ⟨parts.1, parts.2, eq_append_of_splitAtOffset? cut⟩
  · rintro ⟨before, after, rfl, rfl⟩
    rw [splitAtOffset?_append]
    rfl

/-- So does a slice up to an offset, and also where that comes before its start. -/
theorem isSome_slice?_iff {text : List Char} {start stop : Nat} :
    (slice? text start stop).isSome ↔ start ≤ stop ∧ IsBoundary text start ∧ IsBoundary text stop := by
  constructor
  · intro cut
    obtain ⟨middle, cut⟩ := Option.isSome_iff_exists.mp cut
    obtain ⟨⟨front, after⟩, upToStop, cut⟩ := Option.bind_eq_some_iff.mp cut
    obtain ⟨⟨before, middle⟩, fromStart, -⟩ := Option.bind_eq_some_iff.mp cut
    obtain ⟨rfl, rfl⟩ := eq_append_of_splitAtOffset? upToStop
    obtain ⟨rfl, rfl⟩ := eq_append_of_splitAtOffset? fromStart
    refine ⟨by simp, ⟨before, middle ++ after, by simp, rfl⟩, before ++ middle, after, rfl, rfl⟩
  · rintro ⟨ordered, ⟨before, rest, rfl, rfl⟩, front, after, split, rfl⟩
    obtain ⟨middle, rfl⟩ : ∃ middle, front = before ++ middle := by
      rcases List.append_eq_append_iff.mp split with ⟨middle, same, -⟩ | ⟨extra, same, -⟩
      · exact ⟨middle, same⟩
      · have empty : extra = [] := by
          cases extra with
          | nil => rfl
          | cons c extra =>
            have size := c.utf8Size_pos
            rw [same, byteLength_append, byteLength_cons] at ordered
            omega
        exact ⟨[], by rw [same, empty, List.append_nil, List.append_nil]⟩
    rw [split, List.append_assoc, byteLength_append, Grammar.slice?_middle]
    rfl

theorem IsBoundary.le_byteLength {text : List Char} {offset : Nat} (boundary : IsBoundary text offset) :
    offset ≤ byteLength text := by
  obtain ⟨before, after, rfl, rfl⟩ := boundary
  rw [byteLength_append]
  exact Nat.le_add_right ..

namespace Cursor

/-- The place is one of the text: a way through the text leads to it. -/
def Within (text : List Char) (here : Cursor) : Prop := Reaches (start text) here

namespace Within

variable {text : List Char} {here later : Cursor}

theorem start (text : List Char) : Within text (start text) := Reaches.refl _

theorem exists_before (place : Within text here) :
    ∃ before, text = before ++ here.rest ∧ byteLength before = here.offset := by
  obtain ⟨before, split, offset⟩ := place
  exact ⟨before, split, by simpa [Cursor.start] using offset.symm⟩

theorem of_append (before rest : List Char) : Within (before ++ rest) ⟨byteLength before, rest⟩ :=
  ⟨before, rfl, by simp [Cursor.start]⟩

theorem isBoundary (place : Within text here) : IsBoundary text here.offset := by
  obtain ⟨before, split, size⟩ := place.exists_before
  exact ⟨before, here.rest, split, size⟩

theorem endOffset_eq (place : Within text here) : here.endOffset = byteLength text := by
  rw [Reaches.endOffset_eq place]
  simp [Cursor.start, endOffset]

theorem offset_of_rest_nil (place : Within text here) (ends : here.rest = []) :
    here.offset = byteLength text := by
  simpa [endOffset, ends] using place.endOffset_eq

theorem sliceFrom?_eq (place : Within text here) : sliceFrom? text here.offset = some here.rest := by
  obtain ⟨before, split, size⟩ := place.exists_before
  rw [split, ← size, sliceFrom?, splitAtOffset?_append]
  rfl

/-- Between two places of a text, the offsets cut out what is passed on the way. -/
theorem slice?_eq (place : Within text here) (reach : Reaches here later) :
    slice? text here.offset later.offset = some (here.upTo later) := by
  obtain ⟨before, split, size⟩ := place.exists_before
  obtain ⟨passed, rest, offset⟩ := reach
  rw [upTo_eq_of_rest_eq rest, split, rest, offset, ← size]
  exact Grammar.slice?_middle before passed later.rest

theorem slice?_of_isAt {c : Char} (place : Within text here) (present : here.isAt c = true) :
    slice? text here.offset (here.offset + c.utf8Size) = some [c] := by
  have passed := place.slice?_eq (reaches_advance here)
  have rest : here.rest = [c] ++ here.advance.rest := Grammar.rest_eq_of_isAt present
  rw [upTo_eq_of_rest_eq rest, Grammar.advance_offset_of_isAt present] at passed
  exact passed

theorem cons {offset : Nat} {c : Char} {rest : List Char} (place : Within text ⟨offset, c :: rest⟩) :
    Within text ⟨offset + c.utf8Size, rest⟩ := place.trans (reaches_advance ⟨offset, c :: rest⟩)

end Within

end Cursor

end Phrasebook.Text

namespace Phrasebook.Syntax

open Text (Cursor IsBoundary byteLength)
open Text.Cursor (Reaches Within)

section spans

/-- The span covers whole characters of the source: its ends are in order, in the source, and not
inside a character. -/
structure Span.Fits (source : List Char) (span : Span) : Prop where
  ordered : span.start ≤ span.stop
  inside : span.stop ≤ byteLength source
  starts : IsBoundary source span.start
  stops : IsBoundary source span.stop

variable {source : List Char} {here later : Cursor}

theorem Span.Fits.of_reaches (place : Within source here) (reach : Reaches here later) :
    Span.Fits source ⟨here.offset, later.offset⟩ where
  ordered := reach.offset_le
  inside := Within.isBoundary (place.trans reach) |>.le_byteLength
  starts := place.isBoundary
  stops := Within.isBoundary (place.trans reach)

theorem Span.Fits.of_within (place : Within source here) :
    Span.Fits source ⟨here.offset, here.offset⟩ := .of_reaches place (Reaches.refl here)

theorem Span.Fits.hull {first last : Span} (begins : first.Fits source) (ends : last.Fits source)
    (ordered : first.start ≤ last.stop) : Span.Fits source ⟨first.start, last.stop⟩ :=
  ⟨ordered, ends.inside, begins.starts, ends.stops⟩

theorem Span.Fits.to_end (place : Within source here) :
    Span.Fits source ⟨here.offset, here.endOffset⟩ where
  ordered := Nat.le_add_right ..
  inside := Nat.le_of_eq place.endOffset_eq
  starts := place.isBoundary
  stops := ⟨source, [], by simp, place.endOffset_eq.symm⟩

/-- What an error points at. An error without a stop points at its start. -/
def Error.span (error : Error) : Span := ⟨error.start, error.stop?.getD error.start⟩

end spans

/-- A node of a syntax tree as a stretch of source: its span, the text that it keeps of its span as
it stands, if it keeps any, and the nodes in it in their order. -/
structure Outline where
  span : Span
  verbatim : Option String
  nodes : List Outline

namespace Outline

/-- The node and all nodes in it are where they belong. Every span covers whole characters, and a kept
text is what its span covers. The nodes in a node lie in its span, each after those before it. -/
inductive Placed (source : List Char) : Outline → Prop
  | node {span : Span} {verbatim : Option String} {nodes : List Outline} (fits : span.Fits source)
      (kept : ∀ text ∈ verbatim, Text.slice? source span.start span.stop = some text.toList)
      (inside : ∀ node ∈ nodes, span.start ≤ node.span.start ∧ node.span.stop ≤ span.stop)
      (ordered : nodes.Pairwise fun earlier later => earlier.span.stop ≤ later.span.start)
      (placed : ∀ node ∈ nodes, Placed source node) : Placed source ⟨span, verbatim, nodes⟩

theorem Placed.fits {source : List Char} {node : Outline} (placed : node.Placed source) :
    node.span.Fits source := by
  cases placed with
  | node fits => exact fits

/-- Nodes that are placed one after the other, from one offset on and up to another. -/
inductive Row (source : List Char) : Nat → Nat → List Outline → Prop
  | nil (ordered : first ≤ last) : Row source first last []
  | cons {node : Outline} {others : List Outline} (after : first ≤ node.span.start)
      (placed : node.Placed source) (rest : Row source node.span.stop last others) :
      Row source first last (node :: others)

namespace Row

variable {source : List Char} {first middle last : Nat} {node : Outline} {nodes others : List Outline}

theorem le (row : Row source first last nodes) : first ≤ last := by
  induction row with
  | nil ordered => exact ordered
  | cons after placed rest ih => exact Nat.le_trans after (Nat.le_trans placed.fits.ordered ih)

theorem single (placed : node.Placed source) (after : first ≤ node.span.start)
    (before : node.span.stop ≤ last) : Row source first last [node] := .cons after placed (.nil before)

theorem start_le (row : Row source middle last nodes) (earlier : first ≤ middle) :
    Row source first last nodes := by
  cases row with
  | nil ordered => exact .nil (Nat.le_trans earlier ordered)
  | cons after placed rest => exact .cons (Nat.le_trans earlier after) placed rest

theorem append (row : Row source first middle nodes) (rest : Row source middle last others) :
    Row source first last (nodes ++ others) := by
  induction row with
  | nil ordered => exact rest.start_le ordered
  | cons after placed _ ih => exact .cons after placed (ih rest)

theorem le_stop (row : Row source first middle nodes) (later : middle ≤ last) :
    Row source first last nodes := by
  simpa using row.append (.nil later)

theorem inside (row : Row source first last nodes) :
    ∀ node ∈ nodes, first ≤ node.span.start ∧ node.span.stop ≤ last := by
  induction row with
  | nil ordered => exact List.forall_mem_nil _
  | cons after placed rest ih =>
    refine List.forall_mem_cons.mpr ⟨⟨after, rest.le⟩, fun node member => ?_⟩
    obtain ⟨start, stop⟩ := ih node member
    exact ⟨Nat.le_trans (Nat.le_trans after placed.fits.ordered) start, stop⟩

theorem placed (row : Row source first last nodes) : ∀ node ∈ nodes, node.Placed source := by
  induction row with
  | nil ordered => exact List.forall_mem_nil _
  | cons after placed rest ih => exact List.forall_mem_cons.mpr ⟨placed, ih⟩

theorem hull {earliest latest : Outline} (row : Row source first last nodes)
    (head : nodes.head? = some earliest) (foot : nodes.getLast? = some latest) :
    Span.Fits source ⟨earliest.span.start, latest.span.stop⟩ := by
  have fits := (row.placed latest (List.mem_of_getLast? foot)).fits
  cases row with
  | nil ordered => cases head
  | cons after placed rest =>
    obtain rfl := Option.some.inj head
    refine placed.fits.hull fits ?_
    rcases List.mem_cons.mp (List.mem_of_getLast? foot) with rfl | behind
    · exact fits.ordered
    · exact Nat.le_trans placed.fits.ordered
        (Nat.le_trans (rest.inside latest behind).1 fits.ordered)

/-- A row that ends with a node may be cut off where that node ends. -/
theorem to_last {final : Outline} (row : Row source first last (nodes ++ [final])) :
    Row source first final.span.stop (nodes ++ [final]) ∧ final.span.stop ≤ last := by
  induction nodes generalizing first with
  | nil =>
    cases row with
    | cons after placed rest => exact ⟨single placed after (Nat.le_refl _), rest.le⟩
  | cons node nodes ih =>
    cases row with
    | cons after placed rest =>
      obtain ⟨cut, before⟩ := ih rest
      exact ⟨.cons after placed cut, before⟩

private theorem pairwise (row : Row source first last nodes) :
    nodes.Pairwise fun earlier later => earlier.span.stop ≤ later.span.start := by
  induction row with
  | nil ordered => exact .nil
  | cons after placed rest ih => exact .cons (fun node member => (rest.inside node member).1) ih

end Row

variable {source : List Char} {span : Span}

/-- A node is placed if its nodes are, in its span. -/
theorem Placed.of_row {nodes : List Outline} (fits : span.Fits source)
    (row : Row source span.start span.stop nodes) : Placed source ⟨span, none, nodes⟩ :=
  .node fits (by simp) row.inside row.pairwise row.placed

theorem Row.whole {first last : Nat} {nodes : List Outline}
    (fits : Span.Fits source ⟨first, last⟩) (row : Row source first last nodes) :
    Row source first last [⟨⟨first, last⟩, none, nodes⟩] :=
  .single (.of_row fits row) (Nat.le_refl _) (Nat.le_refl _)

theorem Placed.leaf (fits : span.Fits source) : Placed source ⟨span, none, []⟩ :=
  .of_row fits (.nil fits.ordered)

theorem Placed.kept {here later : Cursor} (place : Within source here) (reach : Reaches here later) :
    Placed source ⟨⟨here.offset, later.offset⟩, some (String.ofList (here.upTo later)), []⟩ :=
  .node (.of_reaches place reach) (by simp [place.slice?_eq reach]) (List.forall_mem_nil _) .nil
    (List.forall_mem_nil _)

end Outline

section trees

/-- A token without its sigil, bars or escapes. -/
def Token.outline (token : Token) : Outline := ⟨token.span, none, []⟩

/-- A word, or junk: the text of its span. -/
def Token.keptOutline (token : Token) : Outline := ⟨token.span, some token.text, []⟩

def Operand.outline : Operand → Outline
  | .quoted token => token.outline
  | .variable token => token.outline

@[simp] theorem Operand.outline_span (operand : Operand) : operand.outline.span = operand.span := by
  cases operand <;> rfl

def OptionValue.outline : OptionValue → Outline
  | .quoted token => token.outline
  | .word token => token.keptOutline
  | .variable token => token.outline

def OptionEntry.outline (entry : OptionEntry) : Outline := ⟨entry.span, none, [entry.value.outline]⟩

def Call.outline (call : Call) : Outline :=
  ⟨call.span, none, call.operand.toList.map Operand.outline ++ call.options.map OptionEntry.outline⟩

def Marker.outline (marker : Marker) : Outline :=
  ⟨marker.span, none, marker.options.map OptionEntry.outline⟩

def PlaceholderBody.outline : PlaceholderBody → Outline
  | .quoted token => token.outline
  | .variable token => token.outline
  | .call node => node.outline
  | .opening marker => marker.outline
  | .closing marker => marker.outline
  | .junk token => token.keptOutline

def Placeholder.outline (node : Placeholder) : Outline := ⟨node.span, none, [node.body.outline]⟩

def Element.outline : Element → Outline
  | .text token => token.outline
  | .placeholder node => node.outline

def Pattern.outline (node : Pattern) : Outline := ⟨node.span, none, node.elements.map Element.outline⟩

/-- A star takes one byte. -/
def Key.outline : Key → Outline
  | .quoted token => token.outline
  | .word token => token.keptOutline
  | .wildcard start => ⟨⟨start, start + 1⟩, none, []⟩

def Variant.outline (node : Variant) : Outline :=
  ⟨node.span, none, node.keys.map Key.outline ++ [node.value.outline]⟩

def Select.outline (node : Select) : Outline :=
  ⟨node.span, none,
    node.selectors.map Placeholder.outline ++ node.variants.map Variant.outline⟩

def Declaration.outline (node : Declaration) : Outline :=
  ⟨node.span, none, [node.target.outline, node.value.outline]⟩

def Body.outline : Body → Outline
  | .pattern node => node.outline
  | .select node => node.outline
  | .junk token => token.keptOutline

/-- A template covers its whole source. -/
def Template.outline (source : List Char) (node : Template) : Outline :=
  ⟨⟨0, byteLength source⟩, none,
    node.declarations.map Declaration.outline ++ [node.body.outline]⟩

end trees

end Phrasebook.Syntax
