import Phrasebook.Resolve.Context
import Phrasebook.Resolve.Matching
import Phrasebook.Resolve.Options
import Phrasebook.Suggestion
import Phrasebook.Text.Distance

/-!
Resolution of messages into pieces. Variables without a value, failing functions and missing terms
become fallback pieces; only terms that nest too deeply or in a circle make resolution fail.

Everything here takes the treatment of a term's target as an argument, and `descent` ties the
knot: it recurs on the number of terms that may still be nested.
-/

namespace Phrasebook

/-- A computation that calls functions in `m` and may fail as a whole. -/
abbrev Resolution (m : Type → Type) := ExceptT ResolveError m

/-- The pieces of a message's body, and the metadata of the choice of a variant. -/
structure ResolvedBody where
  pieces : List Piece
  selection : Option Metadata

/-- How the target of a term is resolved: from the context of the term, where the target was looked
up, the scope that it sees, and the target itself. -/
abbrev Descent (m : Type → Type) :=
  Context m → String → List String → Scope → Message → Resolution m ResolvedBody

/-- The piece of a variable. -/
def variablePiece (scope : Scope) (path : List Operand) (metadata : Option Metadata) : Piece :=
  match scope.follow? path with
  | some value => .dynamic value (metadata.getD .empty)
  | none => .fallback (Operand.variable path metadata).display (metadata.getD .empty)

/-- The piece of a call that failed: its display, with the failure in the metadata. -/
def Call.fallback (call : Call) (failure : Failure) : Piece :=
  .fallback call.display <| (call.metadata.getD .empty).insertAll
    [("error_name", .text failure.name), ("error_message", .text failure.message),
      ("error_stack", .text failure.stack)]

/-- The piece of a call by its result. A piece that the function made keeps its own metadata before
that of the call, unless it is literal: then only its text counts. -/
def Call.piece (call : Call) : Except Failure Output → Piece
  | .error failure => call.fallback failure
  | .ok (.value value) => .dynamic value (call.metadata.getD .empty)
  | .ok (.piece (.literal text _)) => .dynamic (.text text) (call.metadata.getD .empty)
  | .ok (.piece piece) => piece.withMetadata (call.metadata.getD .empty)

/-- The piece of a markup marker: nothing to read, but a value for rich output. -/
def markupPiece (context : Context m) (markup : Markup) : Piece :=
  let bag := markup.metadata.getD .empty
  if markup.name.isEmpty then .fallback markup.display bag
  else
    let schema := ((context.library.formatter? markup.name).map Function.schema).getD .any
    .dynamic
      (.markup markup.kind markup.name (resolveOptions markup.options schema context.scope))
      (bag.insert "markup" (.text markup.kind.name))

/-- The path that a term is looked up at. A segment without a value stands for itself. -/
def Term.target (term : Term) (scope : Scope) : List String :=
  term.path.map fun segment => (scope.segment? segment).getD segment.display

/-- The scope that the target of a term sees. -/
def Term.scope (term : Term) (scope : Scope) : Scope :=
  if term.resource.isSome || !term.bindings.isEmpty then
    scope.extend (resolveOptions term.bindings .any scope)
  else scope

section

variable [Monad m]

/-- The piece of a call. -/
def callPiece (context : Context m) (call : Call) : m Piece :=
  match context.library.formatter? call.name with
  | none =>
    let near := suggestions Text.editDistance call.name context.library.formatterNames
    pure (call.fallback (.missing call.name near))
  | some function =>
    match resolveArguments context.scope call.arguments with
    | .error source => pure (call.fallback (.unresolved source))
    | .ok arguments => do
      let options := resolveOptions call.options function.schema context.scope
      return call.piece (← function.call ⟨context.locales, options, arguments⟩)

/-- The piece of a term: the pieces of its target, with the metadata of the term before that of the
target, and that before the metadata of the choice of a variant. -/
def termPiece (descend : Descent m) (context : Context m) (term : Term) : Resolution m Piece := do
  let bag := term.metadata.getD .empty
  let path := term.target context.scope
  let resource := term.resource.getD context.resource
  match context.lookup resource path with
  | none => pure (.fallback term.display bag)
  | some message =>
    let body ← descend context resource path (term.scope context.scope) message
    let inner := Metadata.mergeOptional message.metadata body.selection
    pure (.message body.pieces ((inner.map bag.merge).getD bag))

/-- The piece of a part. -/
def partPiece (descend : Descent m) (context : Context m) : Part → Resolution m Piece
  | .literal text metadata => pure (.literal text (metadata.getD .empty))
  | .variable path metadata => pure (variablePiece context.scope path metadata)
  | .call call => ExceptT.lift (callPiece context call)
  | .markup markup => pure (markupPiece context markup)
  | .term term => termPiece descend context term

/-- The pieces of parts, in order. -/
def partPieces (descend : Descent m) (context : Context m) : List Part → Resolution m (List Piece)
  | [] => pure []
  | part :: rest => do
    let piece ← partPiece descend context part
    let pieces ← partPieces descend context rest
    pure (piece :: pieces)

/-- The value of a call that stands as a selector. Where there is no such function, or it fails, the
first argument stands in. -/
def selectorCall (context : Context m) (call : Call) : m Value :=
  match resolveArguments context.scope call.arguments with
  | .error source => pure (.text source)
  | .ok arguments =>
    let standIn := arguments.headD (.text call.display)
    match context.library.selector? call.name with
    | none => pure standIn
    | some function => do
      let options := resolveOptions call.options function.schema context.scope
      match ← function.call ⟨context.locales, options, arguments⟩ with
      | .ok output => pure output.toValue
      | .error _ => pure standIn

/-- A numeric value with its plural category, where the library can tell it. -/
def pluralForms (context : Context m) (value : Value) : m Value :=
  match context.library.selector? "plural" with
  | none => pure value
  | some function => do
    match ← function.call ⟨context.locales, [], [value]⟩ with
    | .ok output => pure output.toValue
    | .error _ => pure value

/-- The value as keys are compared with it: a text, a number or a list, and the text of others. -/
def Value.comparable : Value → Value
  | .text plain => .text plain
  | .number integer => .number integer
  | .float double => .float double
  | .list items => .list items
  | other => .text other.display

/-- The value of a selector. -/
def selectorValue (descend : Descent m) (context : Context m) (part : Part) :
    Resolution m Value := do
  let value ← match part with
    | .call call => ExceptT.lift (selectorCall context call)
    | other => do pure (← partPiece descend context other).value
  let forms ← if value.isNumeric then ExceptT.lift (pluralForms context value) else pure value
  pure forms.comparable

/-- The values of selectors, in order. -/
def selectorValues (descend : Descent m) (context : Context m) :
    List Selector → Resolution m (List ResolvedSelector)
  | [] => pure []
  | selector :: rest => do
    let value ← selectorValue descend context selector.value
    let values ← selectorValues descend context rest
    pure (⟨value, selector.defaultKey⟩ :: values)

/-- The choice of a selection's variant. -/
def resolveSelect (descend : Descent m) (context : Context m) (select : Select) :
    Resolution m Selection := do
  let selectors ← selectorValues descend context select.selectors
  pure (.choose selectors select.variants)

/-- The pieces of a message's body. -/
def resolveBody (descend : Descent m) (context : Context m) (message : Message) :
    Resolution m ResolvedBody := do
  match message.body with
  | .pattern pattern => pure ⟨← partPieces descend context pattern.parts, none⟩
  | .select select =>
    let selection ← resolveSelect descend context select
    match selection.pattern with
    | none => pure ⟨[], selection.metadata⟩
    | some pattern => pure ⟨← partPieces descend context pattern.parts, selection.metadata⟩

/-- The way into terms where `depth` more of them may be nested. -/
def descent : Nat → Descent m
  | 0 => fun context _ _ _ _ => throw (.maxDepthExceeded context.maxDepth)
  | depth + 1 => fun context resource path scope message => do
    let inner ← ExceptT.mk (pure (context.enter resource path scope))
    resolveBody (descent depth) inner message

namespace Context

/-- The piece of a part in a context. -/
def resolvePart (context : Context m) (part : Part) : Resolution m Piece :=
  partPiece (descent context.remaining) context part

/-- The pieces of a pattern in a context. -/
def resolvePattern (context : Context m) (pattern : Pattern) : Resolution m (List Piece) :=
  partPieces (descent context.remaining) context pattern.parts

/-- The pieces of a message in a context. Where the message has metadata, or the choice of a variant
gave some, they are wrapped into one piece that carries it. -/
def resolve (context : Context m) (message : Message) : Resolution m (List Piece) := do
  let body ← resolveBody (descent context.remaining) context message
  match Metadata.mergeOptional message.metadata body.selection with
  | some bag => pure [.message body.pieces bag]
  | none => pure body.pieces

end Context

end

end Phrasebook
