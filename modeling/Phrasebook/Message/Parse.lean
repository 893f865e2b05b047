import Phrasebook.Message.Basic
import Phrasebook.Syntax.Template

/-!
Messages from templates. Spans are dropped, junk becomes its own source text, and variants with a
wrong number of keys are left out.
-/

namespace Phrasebook

/-- The variable of a name: points separate the segments of its path. -/
def Operand.ofName (name : String) : Operand :=
  .ofNames ((name.toList.splitOn '.').map String.ofList)

namespace Syntax

def Operand.toOperand : Syntax.Operand → Phrasebook.Operand
  | .quoted token => .literal token.text none
  | .variable token => .ofName token.text

def OptionValue.toOperand : OptionValue → Phrasebook.Operand
  | .quoted token => .literal token.text none
  | .word token => .literal token.text none
  | .variable token => .ofName token.text

/-- The options of a placeholder, of which the last of a repeated name counts. -/
def toOptions (entries : List OptionEntry) : Options :=
  .ofPairs (entries.map fun entry => (entry.name, entry.value.toOperand))

def Marker.toPart (kind : MarkupKind) (marker : Marker) : Part :=
  .markup ⟨kind, marker.name, toOptions marker.options, none⟩

/-- The part of a placeholder. Junk becomes the text of the placeholder in the given source. -/
def Placeholder.toPart (source : List Char) (node : Placeholder) : Part :=
  match node.body with
  | .quoted token => .literal token.text none
  | .variable token => .ofOperand (.ofName token.text)
  | .call call =>
    .call ⟨call.name, call.operand.toList.map Operand.toOperand, toOptions call.options, none⟩
  | .opening marker => marker.toPart .opening
  | .closing marker => marker.toPart .closing
  | .junk _ =>
    .literal (String.ofList ((Text.slice? source node.span.start node.span.stop).getD [])) none

def Element.toPart (source : List Char) : Element → Part
  | .text token => .literal token.text none
  | .placeholder node => node.toPart source

def Pattern.toPattern (source : List Char) (node : Pattern) : Phrasebook.Pattern :=
  .ofParts (node.elements.map (Element.toPart source))

def Key.toKey : Key → VariantKey
  | .quoted token => .literal token.text
  | .word token => .literal token.text
  | .wildcard _ => .wildcard

def Variant.toVariant (source : List Char) (node : Variant) : Phrasebook.Variant :=
  ⟨node.keys.map Key.toKey, node.value.toPattern source⟩

def Declaration.toDeclaration (source : List Char) (node : Declaration) : Phrasebook.Declaration :=
  ⟨node.target.text, node.value.toPart source⟩

/-- The message of a template. A pattern after declarations becomes the only variant of a selection
without selectors, so that the declarations are kept. -/
def Template.toMessage (source : List Char) (node : Template) : Message :=
  let declarations := node.declarations.map (Declaration.toDeclaration source)
  match node.body with
  | .pattern pattern =>
    let value := pattern.toPattern source
    if declarations.isEmpty then ⟨.pattern value, none⟩
    else .ofSelect ⟨declarations, [], [⟨[], value⟩]⟩
  | .select select =>
    let variants := select.variants.filter fun variant =>
      variant.keys.length == select.selectors.length
    .ofSelect ⟨declarations, select.selectors.map fun selector => ⟨selector.toPart source, none⟩,
      variants.map (Variant.toVariant source)⟩
  | .junk token => .ofParts [.literal token.text none]

end Syntax

/-- Reads a message from its template, with the syntax errors found. -/
def Message.parse (source : String) : Message × List Syntax.Error :=
  let (template, errors) := Syntax.parseTemplate source.toList
  (template.toMessage source.toList, errors)

end Phrasebook
