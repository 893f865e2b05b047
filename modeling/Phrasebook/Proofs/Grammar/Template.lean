import Phrasebook.Message.Basic
import Phrasebook.Proofs.Grammar.Placeholder

namespace Phrasebook.Grammar

section placeholders

def Quotation.string (quotation : Quotation) : String := String.ofList quotation.value

/-- The variable of a name: points separate the segments of its path. -/
def Variable.model (binding : Variable) : Phrasebook.Operand :=
  .ofNames ((binding.name.text.splitOn '.').map String.ofList)

def Operand.model : Operand → Phrasebook.Operand
  | .quoted node => .literal node.string none
  | .binding node => node.model

def OptionValue.model : OptionValue → Phrasebook.Operand
  | .quoted node => .literal node.string none
  | .word node => .literal (String.ofList node.text) none
  | .binding node => node.model

/-- The options in order, in which a later one of a repeated name replaces the value in place. -/
def Settings.model (settings : Settings) : Options :=
  settings.foldl (fun options entry =>
    options.insert (String.ofList entry.2.name.text) entry.2.value.model) []

def Signature.markup (kind : MarkupKind) (signature : Signature) : Part :=
  .markup ⟨kind, String.ofList signature.name.text, signature.settings.model, none⟩

def Placeholder.model (placeholder : Placeholder) : Part :=
  match placeholder.content with
  | .plain operand => .ofOperand operand.model
  | .call operand _ signature =>
    .call ⟨String.ofList signature.name.text, operand.toList.map Operand.model,
      signature.settings.model, none⟩
  | .opening signature => signature.markup .opening
  | .closing name => Signature.markup .closing ⟨name, []⟩

end placeholders

/-- A run of text, in which braces and backslashes are escaped, or a placeholder. -/
inductive Element where
  | run (items : List (Escaped ['\\', '{', '}'])) (nonempty : items ≠ [])
  | placeholder (node : Placeholder)

namespace Element

def text : Element → List Char
  | .run items _ => Escaped.spelling items
  | .placeholder node => node.text

def model : Element → Part
  | .run items _ => .literal (String.ofList (Escaped.meaning items)) none
  | .placeholder node => node.model

end Element

/-- Elements in braces. -/
structure Pattern where
  elements : List Element

namespace Pattern

def text (pattern : Pattern) : List Char := '{' :: (pattern.elements.flatMap Element.text ++ ['}'])

def model (pattern : Pattern) : Phrasebook.Pattern := .ofParts (pattern.elements.map Element.model)

end Pattern

/-- A declaration: the keyword, a variable and the placeholder that it is set to. -/
structure Declaration where
  gap : Gap
  target : Variable
  before : Blanks
  after : Blanks
  value : Placeholder

namespace Declaration

def text (declaration : Declaration) : List Char :=
  ['l', 'e', 't'] ++ (declaration.gap.text ++ (declaration.target.text ++
    (declaration.before.text ++ '=' :: (declaration.after.text ++ declaration.value.text))))

def model (declaration : Declaration) : Phrasebook.Declaration :=
  ⟨String.ofList declaration.target.name.text, declaration.value.model⟩

end Declaration

/-- A declaration in which blanks after the keyword may be absent: the dollar sign ends it too. -/
structure LooseDeclaration where
  lead : Blanks
  target : Variable
  before : Blanks
  after : Blanks
  value : Placeholder

def LooseDeclaration.text (declaration : LooseDeclaration) : List Char :=
  ['l', 'e', 't'] ++ (declaration.lead.text ++ (declaration.target.text ++
    (declaration.before.text ++ '=' :: (declaration.after.text ++ declaration.value.text))))

def Declaration.loose (declaration : Declaration) : LooseDeclaration :=
  ⟨declaration.gap.toBlanks, declaration.target, declaration.before, declaration.after,
    declaration.value⟩

/-- Quoted text, a word or the wildcard. -/
inductive Key where
  | quoted (node : Quotation)
  | word (node : Word)
  | wildcard

namespace Key

def text : Key → List Char
  | .quoted node => node.text
  | .word node => node.text
  | .wildcard => ['*']

def model : Key → VariantKey
  | .quoted node => .literal node.string
  | .word node => .literal (String.ofList node.text)
  | .wildcard => .wildcard

end Key

/-- A variant: the keyword, at least one key, and a pattern. -/
structure Variant where
  keys : List (Gap × Key)
  nonempty : keys ≠ []
  before : Blanks
  value : Pattern

namespace Variant

def text (variant : Variant) : List Char :=
  ['w', 'h', 'e', 'n'] ++ (variant.keys.flatMap (fun entry => entry.1.text ++ entry.2.text) ++
    (variant.before.text ++ variant.value.text))

def model (variant : Variant) : Phrasebook.Variant :=
  ⟨variant.keys.map fun entry => entry.2.model, variant.value.model⟩

end Variant

/-- A selection: the keyword, selectors and variants. Each variant has a key for each selector. -/
structure Selection where
  selectors : List (Blanks × Placeholder)
  variants : List (Blanks × Variant)
  selected : selectors ≠ []
  varied : variants ≠ []
  aligned : ∀ entry ∈ variants, entry.2.keys.length = selectors.length

namespace Selection

def text (selection : Selection) : List Char :=
  ['m', 'a', 't', 'c', 'h'] ++
    (selection.selectors.flatMap (fun entry => entry.1.text ++ entry.2.text) ++
      selection.variants.flatMap (fun entry => entry.1.text ++ entry.2.text))

/-- The selectors, none of which names a default, and the variants. -/
def model (selection : Selection) (declarations : List Phrasebook.Declaration) : Select :=
  ⟨declarations, selection.selectors.map (fun entry => ⟨entry.2.model, none⟩),
    selection.variants.map fun entry => entry.2.model⟩

end Selection

inductive Body where
  | pattern (node : Pattern)
  | selection (node : Selection)

def Body.text : Body → List Char
  | .pattern node => node.text
  | .selection node => node.text

/-- A template: declarations and a body, with blanks around each of them. -/
structure Template where
  before : Blanks
  declarations : List (Declaration × Blanks)
  body : Body
  after : Blanks

namespace Template

def text (template : Template) : List Char :=
  template.before.text ++
    (template.declarations.flatMap (fun entry => entry.1.text ++ entry.2.text) ++
      (template.body.text ++ template.after.text))

/-- The message of a template. A message of a pattern alone has no place for declarations, so a
pattern after some is the value of the only variant of a selection without selectors. -/
def model (template : Template) : Message :=
  let declarations := template.declarations.map fun entry => entry.1.model
  match template.body with
  | .pattern node =>
    if template.declarations = [] then ⟨.pattern node.model, none⟩
    else ⟨.select ⟨declarations, [], [⟨[], node.model⟩]⟩, none⟩
  | .selection node => ⟨.select (node.model declarations), none⟩

end Template

/-- A template whose declarations need no blanks after their keywords. -/
structure LooseTemplate where
  before : Blanks
  declarations : List (LooseDeclaration × Blanks)
  body : Body
  after : Blanks

def LooseTemplate.text (template : LooseTemplate) : List Char :=
  template.before.text ++
    (template.declarations.flatMap (fun entry => entry.1.text ++ entry.2.text) ++
      (template.body.text ++ template.after.text))

def Template.loose (template : Template) : LooseTemplate :=
  ⟨template.before, template.declarations.map fun entry => (entry.1.loose, entry.2),
    template.body, template.after⟩

end Phrasebook.Grammar
