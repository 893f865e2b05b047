import Phrasebook.Message.Parse
import Phrasebook.Proofs.Resolve.Outcome

namespace Phrasebook

section messages

/-- The first message is the second one with declarations. They make a pattern the only variant of a
selection that has nothing to choose by. -/
inductive Message.Declares : Message → Message → Prop
  | none (message : Message) : Declares message message
  | select (declarations : List Declaration) (selectors : List Selector) (variants : List Variant)
      (metadata : Option Metadata) :
      Declares ⟨.select ⟨declarations, selectors, variants⟩, metadata⟩
        ⟨.select ⟨[], selectors, variants⟩, metadata⟩
  | pattern (declarations : List Declaration) (value : Pattern) (metadata : Option Metadata) :
      Declares ⟨.select ⟨declarations, [], [⟨[], value⟩]⟩, metadata⟩ ⟨.pattern value, metadata⟩

private theorem Message.Declares.metadata_eq {message plain : Message} (declares : message.Declares plain) :
    message.metadata = plain.metadata := by
  cases declares <;> rfl

/-- No keys match no selectors, exactly, and there is no other variant to note. -/
theorem Selection.choose_keyless (value : Pattern) :
    choose [] [⟨[], value⟩] = ⟨some value, none⟩ := rfl

variable [Monad m] [LawfulMonad m] {message plain : Message}

theorem resolveBody_of_declares (declares : message.Declares plain) (descend : Descent m)
    (context : Context m) :
    resolveBody descend context message = resolveBody descend context plain := by
  cases declares with
  | none => rfl
  | select declarations selectors variants metadata => rfl
  | pattern declarations value metadata =>
    simp only [resolveBody, resolveSelect, selectorValues, pure_bind, Selection.choose_keyless]

private theorem resolve_of_declares (declares : message.Declares plain) (context : Context m) :
    context.resolve message = context.resolve plain := by
  have wrapped : message.wrapped = plain.wrapped := by
    funext body
    rw [Message.wrapped, Message.wrapped, declares.metadata_eq]
  rw [Context.resolve_eq, Context.resolve_eq, wrapped, resolveBody_of_declares declares]

private theorem descent_of_declares (declares : message.Declares plain) (depth : Nat) (context : Context m)
    (resource : String) (path : List String) (scope : Scope) :
    descent depth context resource path scope message =
      descent depth context resource path scope plain := by
  cases depth with
  | zero => rfl
  | succ depth => simp only [descent, resolveBody_of_declares declares]

end messages

section templates

namespace Syntax.Template

/-- The template without its declarations. -/
def undeclared (node : Template) : Template := { node with declarations := [] }

/-- Declarations make no other difference to what a template is read as. Junk loses them. -/
theorem toMessage_declares (source : List Char) (node : Template) :
    (node.toMessage source).Declares (node.undeclared.toMessage source) := by
  obtain ⟨declarations, body⟩ := node
  cases body with
  | pattern pattern =>
    cases declarations with
    | nil => exact .none _
    | cons first rest => exact .pattern _ _ _
  | select select => exact .select _ _ _ _
  | junk token => exact .none _

end Syntax.Template

/-- A template comes to the same pieces with the same metadata as it does without its declarations, or
fails in the same way, whatever it is resolved in; and so it does where a term refers to it. -/
theorem resolve_undeclared [Monad m] [LawfulMonad m] (source : List Char) (node : Syntax.Template)
    (context : Context m) :
    context.resolve (node.toMessage source) = context.resolve (node.undeclared.toMessage source) ∧
    ∀ depth resource path scope,
      descent depth context resource path scope (node.toMessage source) =
        descent depth context resource path scope (node.undeclared.toMessage source) :=
  have declares := node.toMessage_declares source
  ⟨resolve_of_declares declares context, fun depth => descent_of_declares declares depth context⟩

/-- A pattern behind a declaration of the name that it shows, and behind one that cannot be resolved. The
name keeps the value of the scope, and nothing is wrapped. -/
theorem resolve_undeclared_greeting :
    let source := "let $name=\x7b|Bo|\x7d let $n=\x7b:gone\x7d \x7bHello \x7b$name\x7d\x7d".toList
    let node := (Syntax.parseTemplate source).1
    let pattern := Pattern.ofParts [.literal "Hello " none, .variable [.literal "name" none] none]
    let context : Context Id :=
      ⟨[], .empty, fun _ _ => none, .ofPairs [("name", .text "Ada")], "default", [], 64⟩
    node.declarations.length = 2 ∧ node.undeclared.toMessage source = ⟨.pattern pattern, none⟩ ∧
    context.resolve (node.toMessage source) = context.resolve (node.undeclared.toMessage source) ∧
    CanEnd (context.resolve (node.toMessage source))
      (.ok [.literal "Hello " .empty, .dynamic (.text "Ada") .empty]) := by
  intro source node pattern context
  have declared : node.declarations.length = 2 := by decide +kernel
  have body : node.body = .pattern ⟨⟨32, 47⟩, [.text ⟨⟨33, 39⟩, "Hello "⟩,
      .placeholder ⟨⟨39, 46⟩, .variable ⟨⟨40, 45⟩, "name"⟩⟩]⟩ := by decide +kernel
  have read : node.undeclared.toMessage source = ⟨.pattern pattern, none⟩ := by
    rw [Syntax.Template.undeclared, body]
    rfl
  obtain ⟨same, -⟩ := resolve_undeclared source node context
  refine ⟨declared, read, same, ?_⟩
  rw [same, read]
  rfl

end templates

end Phrasebook
