import Mathlib.Data.List.Chain
import Phrasebook.Message.Parse

namespace Phrasebook

section model

/-- A name that needs no further cutting. -/
def Operand.IsSegment : Operand → Prop
  | .literal name bag => '.' ∉ name.toList ∧ bag = none
  | .variable .. => False

/-- A path as it is written: one name or more. -/
structure Operand.PlainPath (path : List Operand) : Prop where
  named : path ≠ []
  segments : ∀ segment ∈ path, segment.IsSegment

def Operand.WellFormed : Operand → Prop
  | .literal _ bag => bag = none
  | .variable path bag => PlainPath path ∧ bag = none

structure Options.WellFormed (options : Options) : Prop where
  distinct : (options.map Prod.fst).Nodup
  values : ∀ entry ∈ options, entry.2.WellFormed

structure Call.WellFormed (call : Call) : Prop where
  arity : call.arguments.length ≤ 1
  arguments : ∀ argument ∈ call.arguments, argument.WellFormed
  options : call.options.WellFormed
  bare : call.metadata = none

structure Markup.WellFormed (markup : Markup) : Prop where
  paired : markup.kind ≠ .standalone
  closing : markup.kind = .closing → markup.options = []
  options : markup.options.WellFormed
  bare : markup.metadata = none

def Part.WellFormed : Part → Prop
  | .literal _ bag => bag = none
  | .variable path bag => (Operand.variable path bag).WellFormed
  | .call node => node.WellFormed
  | .markup node => node.WellFormed
  | .term _ => False

structure Pattern.WellFormed (pattern : Pattern) : Prop where
  parts : ∀ part ∈ pattern.parts, part.WellFormed
  apart : pattern.parts.IsChain Part.Apart

structure Select.WellFormed (select : Select) : Prop where
  declarations : ∀ declaration ∈ select.declarations, declaration.value.WellFormed
  selectors : ∀ selector ∈ select.selectors, selector.value.WellFormed
  aligned : ∀ variant ∈ select.variants, variant.keys.length = select.selectors.length
  variants : ∀ variant ∈ select.variants, variant.value.WellFormed

def Body.WellFormed : Body → Prop
  | .pattern node => node.WellFormed
  | .select node => node.WellFormed

structure Message.WellFormed (message : Message) : Prop where
  body : message.body.WellFormed
  bare : message.metadata = none

end model

section operands

private theorem separator_notMem_splitOn (separator : Char) (text : List Char) :
    ∀ piece ∈ text.splitOn separator, separator ∉ piece := by
  induction text with
  | nil => simp [List.splitOn_nil]
  | cons c rest ih =>
    rw [List.splitOn_cons_eq_if_modifyHead]
    split
    · exact List.forall_mem_cons.mpr ⟨List.not_mem_nil, ih⟩
    · next other =>
      cases pieces : rest.splitOn separator with
      | nil => exact absurd pieces (List.splitOn_ne_nil separator rest)
      | cons first pieces' =>
        rw [pieces] at ih
        obtain ⟨head, tail⟩ := List.forall_mem_cons.mp ih
        have different : separator ≠ c := fun same => other (beq_iff_eq.mpr same.symm)
        exact List.forall_mem_cons.mpr ⟨List.not_mem_cons_of_ne_of_not_mem different head, tail⟩

theorem Operand.ofName_wellFormed (name : String) : (Operand.ofName name).WellFormed := by
  refine ⟨⟨?_, ?_⟩, rfl⟩
  · simp only [ne_eq, List.map_eq_nil_iff]
    exact List.splitOn_ne_nil '.' name.toList
  · intro segment member
    obtain ⟨text, listed, rfl⟩ := List.mem_map.mp member
    obtain ⟨piece, cut, rfl⟩ := List.mem_map.mp listed
    refine ⟨?_, rfl⟩
    rw [String.toList_ofList]
    exact separator_notMem_splitOn '.' name.toList piece cut

namespace Syntax

theorem Operand.toOperand_wellFormed (operand : Syntax.Operand) : operand.toOperand.WellFormed := by
  cases operand with
  | quoted token => rfl
  | «variable» token => exact Operand.ofName_wellFormed token.text

theorem OptionValue.toOperand_wellFormed (value : OptionValue) : value.toOperand.WellFormed := by
  cases value with
  | quoted token => rfl
  | word token => rfl
  | «variable» token => exact Operand.ofName_wellFormed token.text

theorem toOptions_wellFormed (entries : List OptionEntry) : (toOptions entries).WellFormed where
  distinct := Keyed.nodup_keys_ofPairs _
  values := by
    intro entry member
    obtain ⟨node, -, rfl⟩ := List.mem_map.mp (Keyed.mem_of_mem_ofPairs member)
    exact node.value.toOperand_wellFormed

end Syntax

end operands

section parts

namespace Syntax

/-- No markup stands alone, so it is enough that a closing marker has no options. -/
theorem Placeholder.toPart_wellFormed (source : List Char) {node : Placeholder}
    (closing : ∀ marker, node.body = .closing marker → marker.options = []) :
    (node.toPart source).WellFormed := by
  unfold Placeholder.toPart
  cases body : node.body with
  | quoted token => rfl
  | «variable» token => exact Operand.ofName_wellFormed token.text
  | call call =>
    refine ⟨?_, ?_, toOptions_wellFormed call.options, rfl⟩
    · rw [List.length_map]
      exact Option.length_toList_le
    · intro argument member
      obtain ⟨operand, -, rfl⟩ := List.mem_map.mp member
      exact operand.toOperand_wellFormed
  | opening marker => exact ⟨nofun, nofun, toOptions_wellFormed marker.options, rfl⟩
  | closing marker =>
    refine ⟨nofun, fun _ => ?_, toOptions_wellFormed marker.options, rfl⟩
    simp only [closing marker body]
    rfl
  | junk token => rfl

private theorem readPlaceholder_closing {here : Text.Cursor} {marker : Marker}
    (closing : (readPlaceholder here).value.body = .closing marker) : marker.options = [] := by
  unfold readPlaceholder at closing
  simp only at closing
  split at closing
  · cases closing
  · split at closing
    · cases closing
    · split at closing
      · cases closing
        rfl
      · split at closing <;> cases closing

theorem readPlaceholder_wellFormed (source : List Char) (here : Text.Cursor) :
    ((readPlaceholder here).value.toPart source).WellFormed :=
  Placeholder.toPart_wellFormed source fun _ closing => readPlaceholder_closing closing

end Syntax

end parts

section patterns

namespace Pattern

theorem isChain_parts (pattern : Pattern) : pattern.parts.IsChain Part.Apart := by
  obtain ⟨parts, apart⟩ := pattern
  fun_induction Part.AllApart parts with
  | case1 part next rest ih => exact .cons_cons apart.1 (ih apart.2)
  | case2 parts few =>
    cases parts with
    | nil => exact .nil
    | cons part rest =>
      cases rest with
      | nil => exact .singleton part
      | cons next rest => exact absurd rfl (few part next rest)

theorem ofParts_wellFormed {parts : List Part} (each : ∀ part ∈ parts, part.WellFormed) :
    (Pattern.ofParts parts).WellFormed where
  parts := by
    refine forall_mem_mergeLiterals ?_ each
    rintro _ _ _ _ rfl rfl
    rfl
  apart := isChain_parts _

end Pattern

namespace Syntax

theorem readElement?_wellFormed (source : List Char) {here : Text.Cursor}
    {reading : Reading Element} (found : readElement? here = some reading) :
    (reading.value.toPart source).WellFormed := by
  simp only [readElement?] at found
  split at found
  · cases found
  · split at found
    · obtain rfl := Option.some.inj found
      exact readPlaceholder_wellFormed source here
    · obtain rfl := Option.some.inj found
      rfl

theorem forall_mem_many {step : Step α} {progresses : step.Progresses} {holds : α → Prop}
    (each : ∀ {here reading}, step here = some reading → holds reading.value)
    (here : Text.Cursor) : ∀ value ∈ (many step progresses here).value, holds value := by
  fun_induction many step progresses here with
  | case1 here nothing => exact List.forall_mem_nil _
  | case2 here first found more ih => exact List.forall_mem_cons.mpr ⟨each found, ih⟩

theorem readPattern_wellFormed (source : List Char) (here : Text.Cursor) :
    ((readPattern here).value.toPattern source).WellFormed := by
  have elements : ∀ element ∈ (readPattern here).value.elements,
      (element.toPart source).WellFormed :=
    forall_mem_many (readElement?_wellFormed source) here.advance
  exact Pattern.ofParts_wellFormed (List.forall_mem_map.mpr elements)

theorem readVariantPattern_wellFormed (source : List Char) (here : Text.Cursor) :
    ((readVariantPattern here).value.toPattern source).WellFormed := by
  unfold readVariantPattern
  split
  · exact readPattern_wellFormed source here
  · exact Pattern.ofParts_wellFormed (List.forall_mem_nil _)

end Syntax

end patterns

section templates

namespace Syntax

theorem readDeclaration?_wellFormed (source : List Char) {here : Text.Cursor}
    {reading : Reading Declaration} (found : readDeclaration? here = some reading) :
    (reading.value.toDeclaration source).value.WellFormed := by
  obtain ⟨after, -, rfl⟩ := Option.map_eq_some_iff.mp found
  simp only [Declaration.toDeclaration, readDeclared]
  split
  · exact readPlaceholder_wellFormed source _
  · rfl

theorem readSelector?_wellFormed (source : List Char) {here : Text.Cursor}
    {reading : Reading Placeholder} (found : readSelector? here = some reading) :
    (reading.value.toPart source).WellFormed := by
  simp only [readSelector?] at found
  split at found
  · obtain rfl := Option.some.inj found
    exact readPlaceholder_wellFormed source _
  · cases found

theorem readVariant?_wellFormed (source : List Char) {count : Nat} {here : Text.Cursor}
    {reading : Reading Variant} (found : readVariant? count here = some reading) :
    (reading.value.value.toPattern source).WellFormed := by
  obtain ⟨after, -, rfl⟩ := Option.map_eq_some_iff.mp found
  exact readVariantPattern_wellFormed source _

theorem many_readDeclaration?_wellFormed (source : List Char) (here : Text.Cursor) :
    ∀ declaration ∈ (many readDeclaration? readDeclaration?_progresses here).value,
      (declaration.toDeclaration source).value.WellFormed :=
  forall_mem_many (readDeclaration?_wellFormed source) here

/-- What a body needs to be that of a well-formed message; the variants that do not fit the selectors
are left out in any case. -/
def Body.Sound (source : List Char) : Body → Prop
  | .pattern node => (node.toPattern source).WellFormed
  | .select node => (∀ selector ∈ node.selectors, (selector.toPart source).WellFormed) ∧
      ∀ variant ∈ node.variants, (variant.value.toPattern source).WellFormed
  | .junk _ => True

private theorem readBody_sound (source : List Char) (here : Text.Cursor) :
    (readBody here).value.Sound source := by
  unfold readBody
  split
  · next after keyword =>
    exact ⟨forall_mem_many (readSelector?_wellFormed source) after,
      forall_mem_many (readVariant?_wellFormed source) _⟩
  · split
    · exact readPattern_wellFormed source here
    · trivial

theorem Template.toMessage_wellFormed {source : List Char} {node : Template}
    (declared : ∀ declaration ∈ node.declarations,
      (declaration.toDeclaration source).value.WellFormed)
    (sound : node.body.Sound source) : (node.toMessage source).WellFormed := by
  have declarations : ∀ declaration ∈ node.declarations.map (Declaration.toDeclaration source),
      declaration.value.WellFormed := List.forall_mem_map.mpr declared
  unfold Template.toMessage
  simp only
  split
  · next pattern body =>
    rw [body] at sound
    split
    · exact ⟨sound, rfl⟩
    · exact ⟨⟨declarations, List.forall_mem_nil _, List.forall_mem_singleton.mpr rfl,
        List.forall_mem_singleton.mpr sound⟩, rfl⟩
  · next select body =>
    rw [body] at sound
    obtain ⟨selectors, variants⟩ := sound
    refine ⟨⟨declarations, List.forall_mem_map.mpr selectors, ?_, ?_⟩, rfl⟩
    · intro variant member
      obtain ⟨read, listed, rfl⟩ := List.mem_map.mp member
      simpa [Variant.toVariant] using (List.mem_filter.mp listed).2
    · intro variant member
      obtain ⟨read, listed, rfl⟩ := List.mem_map.mp member
      exact variants read (List.mem_filter.mp listed).1
  · exact ⟨Pattern.ofParts_wellFormed (List.forall_mem_singleton.mpr rfl), rfl⟩

theorem parseTemplate_wellFormed (source : List Char) :
    ((parseTemplate source).1.toMessage source).WellFormed :=
  Template.toMessage_wellFormed (many_readDeclaration?_wellFormed source _)
    (readBody_sound source _)

end Syntax

end templates

section terms

/-- The parts that can be resolved for a message: those of its pattern, or its selectors and those of
the patterns of its variants. -/
def Message.parts (message : Message) : List Part :=
  match message.body with
  | .pattern node => node.parts
  | .select node => node.selectors.map Selector.value ++
      node.variants.flatMap fun variant => variant.value.parts

/-- No term can be resolved for the message. -/
def Message.TermFree (message : Message) : Prop := ∀ term, .term term ∉ message.parts

theorem Message.WellFormed.parts {message : Message} (formed : message.WellFormed) :
    ∀ part ∈ message.parts, part.WellFormed := by
  obtain ⟨body, metadata⟩ := message
  cases body with
  | pattern node => exact formed.body.parts
  | select node =>
    obtain ⟨-, selectors, -, variants⟩ := formed.body
    refine List.forall_mem_append.mpr ⟨List.forall_mem_map.mpr selectors, fun part member => ?_⟩
    obtain ⟨variant, listed, present⟩ := List.mem_flatMap.mp member
    exact (variants variant listed).parts part present

/-- A well-formed message has no terms: there is no syntax for them. -/
theorem Message.WellFormed.termFree {message : Message} (formed : message.WellFormed) :
    message.TermFree := fun term member => formed.parts (.term term) member

theorem Message.parse_termFree (source : String) : (Message.parse source).1.TermFree :=
  (Syntax.parseTemplate_wellFormed source.toList).termFree

end terms

/-- A message that is read from a text is well formed, whatever the text. -/
theorem Message.parse_wellFormed (source : String) : (Message.parse source).1.WellFormed :=
  Syntax.parseTemplate_wellFormed source.toList

end Phrasebook
