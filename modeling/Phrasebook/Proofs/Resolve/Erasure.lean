import Mathlib.Logic.Function.Basic
import Phrasebook.Formatter
import Phrasebook.Proofs.Resolve.Choice
import Phrasebook.Proofs.Resolve.Nesting

/-!
Messages without metadata. What is read of a piece is its value and its texts; metadata wraps pieces
and goes with them, and nothing that is read depends on it. So a message reads the same, or fails in
the same way, when all metadata is taken from it and from the messages that its terms refer to.
-/

namespace Phrasebook

section bare

mutual

/-- The operand without metadata, down to the segments of its path. -/
def Operand.bare : Operand → Operand
  | .literal text _ => .literal text none
  | .variable path _ => .variable (Operand.bareAll path) none

def Operand.bareAll : List Operand → List Operand
  | [] => []
  | operand :: rest => operand.bare :: Operand.bareAll rest

end

def Options.bare (options : Options) : Options :=
  options.map fun entry => (entry.1, entry.2.bare)

def Call.bare (call : Call) : Call :=
  ⟨call.name, Operand.bareAll call.arguments, Options.bare call.options, none⟩

def Markup.bare (markup : Markup) : Markup :=
  ⟨markup.kind, markup.name, Options.bare markup.options, none⟩

def Term.bare (term : Term) : Term :=
  ⟨term.resource, Operand.bareAll term.path, Options.bare term.bindings, none⟩

def Part.bare : Part → Part
  | .literal text _ => .literal text none
  | .variable path _ => .variable (Operand.bareAll path) none
  | .call node => .call node.bare
  | .markup node => .markup node.bare
  | .term node => .term node.bare

theorem Part.isLiteral_bare (part : Part) : part.bare.isLiteral = part.isLiteral := by
  cases part <;> rfl

def Pattern.bare (pattern : Pattern) : Pattern :=
  ⟨pattern.parts.map Part.bare, pattern.apart.map Part.isLiteral_bare⟩

def Variant.bare (variant : Variant) : Variant := { variant with value := variant.value.bare }

def Selector.bare (selector : Selector) : Selector := { selector with value := selector.value.bare }

def Declaration.bare (declaration : Declaration) : Declaration :=
  { declaration with value := declaration.value.bare }

def Select.bare (select : Select) : Select :=
  ⟨select.declarations.map Declaration.bare, select.selectors.map Selector.bare,
    select.variants.map Variant.bare⟩

def Body.bare : Body → Body
  | .pattern node => .pattern node.bare
  | .select node => .select node.bare

/-- The message without metadata, in none of its parts. -/
def Message.bare (message : Message) : Message := ⟨message.body.bare, none⟩

/-- The context in which every message that is looked up has no metadata. -/
def Context.bare (context : Context m) : Context m :=
  { context with lookup := fun resource path => (context.lookup resource path).map Message.bare }

/-- The catalog of the messages without metadata. -/
def Catalog.bare (catalog : Catalog) : Catalog where
  resources := catalog.resources.map fun entry =>
    (entry.1, entry.2.map fun stored => (stored.1, stored.2.bare))
  ascending := catalog.ascending.map_values fun _ messages =>
    messages.map fun stored => (stored.1, stored.2.bare)
  filled := List.forall_mem_map.mpr fun entry member =>
    mt List.map_eq_nil_iff.mp (catalog.filled entry member)
  distinct := List.forall_mem_map.mpr fun entry member => by
    simpa [List.map_map, Function.comp_def] using catalog.distinct entry member

end bare

section fields

variable (context : Context m)

@[simp] theorem Context.bare_locales : context.bare.locales = context.locales := rfl

@[simp] theorem Context.bare_library : context.bare.library = context.library := rfl

@[simp] theorem Context.bare_scope : context.bare.scope = context.scope := rfl

@[simp] theorem Context.bare_resource : context.bare.resource = context.resource := rfl

@[simp] theorem Context.bare_lookup (resource : String) (path : List String) :
    context.bare.lookup resource path = (context.lookup resource path).map Message.bare := rfl

@[simp] theorem Call.bare_name (call : Call) : call.bare.name = call.name := rfl

@[simp] theorem Markup.bare_name (markup : Markup) : markup.bare.name = markup.name := rfl

@[simp] theorem Term.bare_resource (term : Term) : term.bare.resource = term.resource := rfl

end fields

section displays

mutual

theorem Operand.display_bare : ∀ operand : Operand, operand.bare.display = operand.display
  | .literal text _ => rfl
  | .variable path _ => by simp only [bare, display, Operand.displayAll_bareAll path]

theorem Operand.displayAll_bareAll :
    ∀ operands : List Operand, displayAll (bareAll operands) = displayAll operands
  | [] => rfl
  | operand :: rest => by
    simp only [bareAll, displayAll, Operand.display_bare operand, Operand.displayAll_bareAll rest]

end

private theorem Operand.bareAll_eq_map (operands : List Operand) : bareAll operands = operands.map bare := by
  induction operands with
  | nil => rfl
  | cons operand operands ih => rw [bareAll, ih, List.map_cons]

theorem Options.displays_bare (options : Options) : (bare options).displays = options.displays := by
  simp only [displays, bare, List.map_map]
  exact List.map_congr_left fun entry _ => congrArg _ entry.2.display_bare

theorem Options.isEmpty_bare (options : Options) : (bare options).isEmpty = options.isEmpty :=
  List.isEmpty_map

theorem Call.display_bare (call : Call) : call.bare.display = call.display := by
  simp only [display, bare, Operand.displayAll_bareAll, Options.displays_bare]

theorem Term.display_bare (term : Term) : term.bare.display = term.display := by
  simp only [display, bare, Operand.displayAll_bareAll, Options.displays_bare, Options.isEmpty_bare]

end displays

section scopes

variable (scope : Scope)

mutual

theorem Scope.segment?_bare :
    ∀ segment : Operand, scope.segment? segment.bare = scope.segment? segment
  | .literal text _ => rfl
  | .variable path _ => by simp only [Operand.bare, segment?, Scope.follow?_bareAll path]

theorem Scope.follow?_bareAll :
    ∀ path : List Operand, scope.follow? (Operand.bareAll path) = scope.follow? path
  | [] => rfl
  | first :: rest => by
    simp only [Operand.bareAll, follow?, Scope.segment?_bare first, Scope.step?_bareAll rest]

theorem Scope.step?_bareAll :
    ∀ (path : List Operand) (value : Value),
      scope.step? value (Operand.bareAll path) = scope.step? value path
  | [], _ => rfl
  | segment :: rest, _ => by
    simp only [Operand.bareAll, step?, Scope.segment?_bare segment, Scope.step?_bareAll rest]

end

theorem resolveOption?_bare (schema : OptionSchema) (name : String) (operand : Operand) :
    resolveOption? schema scope name operand.bare = resolveOption? schema scope name operand := by
  cases operand with
  | literal text metadata => rfl
  | _ => simp only [resolveOption?, Operand.bare, Scope.follow?_bareAll]

theorem resolveOptions_bare (options : Options) (schema : OptionSchema) :
    resolveOptions (Options.bare options) schema scope = resolveOptions options schema scope := by
  simp only [resolveOptions, Options.bare, List.filterMap_map, Function.comp_def,
    resolveOption?_bare]

private theorem resolveArguments_bareAll (operands : List Operand) :
    resolveArguments scope (Operand.bareAll operands) = resolveArguments scope operands := by
  induction operands with
  | nil => rfl
  | cons operand operands ih =>
    cases operand with
    | literal text metadata => simp only [Operand.bareAll, Operand.bare, resolveArguments, ih]
    | «variable» path metadata =>
      have shown := Operand.display_bare (.variable path metadata)
      simp only [Operand.bare] at shown
      simp only [Operand.bareAll, Operand.bare, resolveArguments, Scope.follow?_bareAll, ih, shown]

theorem Call.resolveOptions_bare (call : Call) (schema : OptionSchema) :
    resolveOptions call.bare.options schema scope = resolveOptions call.options schema scope :=
  Phrasebook.resolveOptions_bare ..

theorem Call.resolveArguments_bare (call : Call) :
    resolveArguments scope call.bare.arguments = resolveArguments scope call.arguments :=
  resolveArguments_bareAll ..

theorem Term.target_bare (term : Term) : term.bare.target scope = term.target scope := by
  simp only [target, bare, Operand.bareAll_eq_map, List.map_map, Function.comp_def,
    Scope.segment?_bare, Operand.display_bare]

theorem Term.scope_bare (term : Term) : term.bare.scope scope = term.scope scope := by
  simp only [Term.scope, bare, resolveOptions_bare, Options.isEmpty_bare]

end scopes

section readings

namespace Piece

/-- What is read of a piece: its value, and its text for any locales. -/
def reading (piece : Piece) : Value × (List Locale → String) :=
  (piece.value, fun locales => piece.localized locales)

private theorem reading_fallback (source : String) (bag : Metadata) :
    (fallback source bag).reading = (.text source, fun _ => "\x7b" ++ source ++ "\x7d") := rfl

theorem render_congr {pieces others : List Piece} (same : pieces.map reading = others.map reading)
    (locales : List Locale) : render locales pieces = render locales others := by
  induction pieces generalizing others with
  | nil => rw [List.map_eq_nil_iff.mp same.symm]
  | cons piece pieces ih =>
    cases others with
    | nil => cases same
    | cons other others =>
      obtain ⟨first, rest⟩ := List.cons_eq_cons.mp same
      have text : piece.localized locales = other.localized locales :=
        congrFun (congrArg Prod.snd first) locales
      rw [render, render, ih rest, text]

private theorem reading_message {pieces others : List Piece} (same : pieces.map reading = others.map reading)
    (bag bag' : Metadata) : (message pieces bag).reading = (message others bag').reading := by
  simp only [reading, value, localized, render_congr same]

end Piece

/-- What is read of a message's body. The metadata of the choice of a variant is not. -/
def ResolvedBody.reading (body : ResolvedBody) : List (Value × (List Locale → String)) :=
  body.pieces.map Piece.reading

theorem Call.reading_fallback (call : Call) (failure : Failure) :
    (call.fallback failure).reading =
      (.text call.display, fun _ => "\x7b" ++ call.display ++ "\x7d") :=
  Piece.reading_fallback ..

theorem Call.reading_piece_bare (call : Call) (result : Except Failure Output) :
    (call.bare.piece result).reading = (call.piece result).reading := by
  cases result with
  | error failure => simp only [piece, reading_fallback, display_bare]
  | ok output =>
    cases output with
    | value value => rfl
    | piece ready => cases ready <;> rfl

theorem reading_variablePiece_bare (scope : Scope) (path : List Operand)
    (metadata : Option Metadata) :
    (variablePiece scope (Operand.bareAll path) none).reading =
      (variablePiece scope path metadata).reading := by
  have shown := Operand.display_bare (.variable path metadata)
  rw [Operand.bare] at shown
  unfold variablePiece
  rw [scope.follow?_bareAll]
  cases scope.follow? path with
  | none => simp only [Piece.reading_fallback, shown]
  | some value => rfl

theorem reading_markupPiece_bare (context : Context m) (markup : Markup) :
    (markupPiece context.bare markup.bare).reading = (markupPiece context markup).reading := by
  have options (schema) : resolveOptions markup.bare.options schema context.scope =
    resolveOptions markup.options schema context.scope := resolveOptions_bare ..
  simp only [markupPiece, Context.bare_library, Context.bare_scope, Markup.bare_name, options]
  cases markup.name.isEmpty with
  | true => rfl
  | false => rfl

end readings

section sameness

variable [Monad m]

/-- Both resolutions do the same and fail in the same way, and what is seen of their values is the
same. -/
def SameBy (view : α → γ) (first second : Resolution m α) : Prop :=
  view <$> first = view <$> second

theorem SameBy.symm {view : α → γ} {first second : Resolution m α} (same : SameBy view first second) :
    SameBy view second first := Eq.symm same

theorem SameBy.trans {view : α → γ} {first second third : Resolution m α}
    (same : SameBy view first second) (next : SameBy view second third) : SameBy view first third :=
  Eq.trans same next

variable [LawfulMonad m]

namespace SameBy

theorem pure {view : α → γ} {value other : α} (same : view value = view other) :
    SameBy view (pure value : Resolution m α) (Pure.pure other) := by
  rw [SameBy, map_pure, map_pure, same]

/-- Sequences are the same if their first steps are, and the second ones where no difference is seen
between the results of the first. So what is seen of the second is a function of what is seen of the
first. -/
theorem bind {view : α → γ} {seen : β → δ} {first second : Resolution m α}
    {next other : α → Resolution m β} (start : SameBy view first second)
    (rest : ∀ value value', view value = view value' → SameBy seen (next value) (other value')) :
    SameBy seen (first >>= next) (second >>= other) := by
  let step : γ → Resolution m δ :=
    Function.extend view (fun value => seen <$> next value) fun _ => throw (.maxDepthExceeded 0)
  have factors : Function.FactorsThrough (fun value => seen <$> next value) view :=
    fun value value' same => (rest value value' same).trans (rest value' value' rfl).symm
  have before (value) : seen <$> next value = step (view value) :=
    (factors.extend_apply _ value).symm
  have after (value) : seen <$> other value = step (view value) :=
    Eq.trans (rest value value rfl).symm (before value)
  calc seen <$> (first >>= next)
    _ = first >>= fun value => step (view value) := by simp only [map_bind, before]
    _ = view <$> first >>= step := (bind_map_left ..).symm
    _ = view <$> second >>= step := by rw [start]
    _ = second >>= fun value => step (view value) := bind_map_left ..
    _ = seen <$> (second >>= other) := by simp only [map_bind, after]

theorem bind_right {seen : β → δ} (first : Resolution m α) {next other : α → Resolution m β}
    (rest : ∀ value, SameBy seen (next value) (other value)) :
    SameBy seen (first >>= next) (first >>= other) := by
  rw [SameBy, map_bind, map_bind]
  exact bind_congr rest

private theorem lift {view : α → γ} {first second : m α} (same : view <$> first = view <$> second) :
    SameBy view (ExceptT.lift first : Resolution m α) (ExceptT.lift second) := by
  have lifted (effect : m α) :
      (view <$> ExceptT.lift effect : Resolution m γ) = ExceptT.lift (view <$> effect) := by
    apply ExceptT.ext
    simp [Except.map]
  rw [SameBy, lifted, lifted, same]

theorem eq {first second : Resolution m α} (same : SameBy id first second) : first = second := by
  simpa only [SameBy, id_map] using same

end SameBy

end sameness

section simulation

variable [Monad m] [LawfulMonad m] {descend : Descent m} {context : Context m}

theorem callPiece_bare (context : Context m) (call : Call) :
    Piece.reading <$> callPiece context.bare call.bare =
      Piece.reading <$> callPiece context call := by
  simp only [callPiece, Context.bare_library, Context.bare_scope, Context.bare_locales,
    Call.bare_name, Call.resolveArguments_bare, Call.resolveOptions_bare]
  cases context.library.formatter? call.name with
  | none => simp only [map_pure, Call.reading_fallback, Call.display_bare]
  | some function =>
    cases resolveArguments context.scope call.arguments with
    | error source => simp only [map_pure, Call.reading_fallback, Call.display_bare]
    | ok arguments => simp only [map_bind, map_pure, Call.reading_piece_bare]

/-- The targets of terms read the same without metadata. -/
def EntersBare (descend : Descent m) (context : Context m) : Prop :=
  ∀ resource path scope found, SameBy ResolvedBody.reading
    (descend context.bare resource path scope found.bare) (descend context resource path scope found)

theorem termPiece_bare (entry : EntersBare descend context) (term : Term) :
    SameBy Piece.reading (termPiece descend context.bare term.bare)
      (termPiece descend context term) := by
  simp only [termPiece, Context.bare_scope, Context.bare_resource, Context.bare_lookup,
    Term.bare_resource, Term.target_bare, Term.scope_bare]
  cases context.lookup (term.resource.getD context.resource) (term.target context.scope) with
  | none => exact .pure (by simp only [Piece.reading_fallback, Term.display_bare])
  | some found =>
    refine (entry _ _ _ found).bind fun body body' same => .pure ?_
    exact Piece.reading_message same ..

theorem partPiece_bare (entry : EntersBare descend context) (part : Part) :
    SameBy Piece.reading (partPiece descend context.bare part.bare)
      (partPiece descend context part) := by
  cases part with
  | literal text metadata => exact .pure rfl
  | «variable» path metadata => exact .pure (reading_variablePiece_bare ..)
  | call call => exact .lift (callPiece_bare context call)
  | markup markup => exact .pure (reading_markupPiece_bare ..)
  | term term => exact termPiece_bare entry term

theorem partPieces_bare (entry : EntersBare descend context) (parts : List Part) :
    SameBy (List.map Piece.reading) (partPieces descend context.bare (parts.map Part.bare))
      (partPieces descend context parts) := by
  induction parts with
  | nil => exact .pure rfl
  | cons part parts ih =>
    refine (partPiece_bare entry part).bind fun piece piece' first => ?_
    refine ih.bind fun pieces pieces' rest => .pure ?_
    rw [List.map_cons, List.map_cons, first, rest]

omit [LawfulMonad m] in
theorem selectorCall_bare (context : Context m) (call : Call) :
    selectorCall context.bare call.bare = selectorCall context call := by
  simp only [selectorCall, Context.bare_library, Context.bare_scope, Context.bare_locales,
    Call.bare_name, Call.resolveArguments_bare, Call.resolveOptions_bare, Call.display_bare]

/-- The value of a selector is read of its piece, so it is the same without metadata. -/
theorem selectorValue_bare (entry : EntersBare descend context) (part : Part) :
    selectorValue descend context.bare part.bare = selectorValue descend context part := by
  have forms (value) : pluralForms context.bare value = pluralForms context value := rfl
  have piece := partPiece_bare entry part
  apply SameBy.eq
  simp only [selectorValue, forms]
  cases part with
  | call call =>
    simp only [Part.bare, selectorCall_bare]
    rfl
  | _ =>
    refine piece.bind fun piece piece' same => ?_
    have value : piece.value = piece'.value := congrArg Prod.fst same
    rw [value]
    rfl

theorem selectorValues_bare (entry : EntersBare descend context) (selectors : List Selector) :
    selectorValues descend context.bare (selectors.map Selector.bare) =
      selectorValues descend context selectors := by
  induction selectors with
  | nil => rfl
  | cons selector selectors ih =>
    have value := selectorValue_bare entry selector.value
    simp only [List.map_cons, selectorValues, Selector.bare, ih, value]
    rfl

theorem choose_bare (selectors : List ResolvedSelector) (variants : List Variant) :
    Selection.choose selectors (variants.map Variant.bare) =
      let selection := Selection.choose selectors variants
      ⟨selection.pattern.map Pattern.bare, selection.metadata⟩ := by
  have candidates : Selection.candidates selectors (variants.map Variant.bare) =
      (Selection.candidates selectors variants).map fun entry => (entry.1.bare, entry.2) := by
    unfold Selection.candidates
    rw [List.filterMap_map, List.map_filterMap]
    simp only [Function.comp_def, Option.map_map]
    rfl
  rw [Selection.choose_eq, Selection.choose_eq, candidates]
  cases Selection.candidates selectors variants with
  | nil => rfl
  | cons entry rest => simp [Variant.bare]

theorem resolveBody_bare (entry : EntersBare descend context) (message : Message) :
    SameBy ResolvedBody.reading (resolveBody descend context.bare message.bare)
      (resolveBody descend context message) := by
  unfold resolveBody
  cases message with
  | mk body metadata =>
    cases body with
    | pattern node =>
      exact (partPieces_bare entry node.parts).bind fun pieces pieces' same => .pure same
    | select select =>
      simp only [Message.bare, Body.bare, Select.bare, resolveSelect, selectorValues_bare entry,
        bind_assoc, pure_bind, choose_bare]
      refine .bind_right _ fun selectors => ?_
      cases (Selection.choose selectors select.variants).pattern with
      | none => exact .pure rfl
      | some pattern =>
        exact (partPieces_bare entry pattern.parts).bind fun pieces pieces' same => .pure same

end simulation

section depths

variable [Monad m] [LawfulMonad m]

/-- Every target of a term reads the same without metadata. The induction is on the terms that may
still be nested; a target is entered with the same call stack. -/
theorem descent_bare (depth : Nat) (context : Context m) : EntersBare (descent depth) context := by
  induction depth generalizing context with
  | zero =>
    intro resource path scope found
    rfl
  | succ depth ih =>
    intro resource path scope found
    by_cases present : Context.key resource path ∈ context.callStack
    · have present' : Context.key resource path ∈ context.bare.callStack := present
      rw [descent_of_mem depth present, descent_of_mem depth present']
      rfl
    · have fresh : Context.key resource path ∉ context.bare.callStack := present
      rw [descent_of_notMem depth present, descent_of_notMem depth fresh]
      let inner : Context m := { context with
        scope, resource, callStack := context.callStack ++ [Context.key resource path] }
      exact resolveBody_bare (ih inner) found

private theorem Message.render_wrapped (message : Message) (body : ResolvedBody) (locales : List Locale) :
    Piece.render locales (message.wrapped body) = Piece.render locales body.pieces := by
  unfold wrapped
  split
  · simp only [Piece.render, Piece.localized, String.append_empty]
  · rfl

theorem render_resolve (context : Context m) (locales : List Locale) (message : Message) :
    Piece.render locales <$> context.resolve message =
      (fun body => Piece.render locales body.pieces) <$>
        resolveBody (descent context.remaining) context message := by
  rw [Context.resolve_eq, Functor.map_map]
  simp only [Message.render_wrapped]

theorem render_resolve_bare (context : Context m) (locales : List Locale) (message : Message) :
    Piece.render locales <$> context.bare.resolve message.bare =
      Piece.render locales <$> context.resolve message := by
  rw [render_resolve, render_resolve, map_eq_pure_bind, map_eq_pure_bind]
  have body := resolveBody_bare (descent_bare context.remaining context) message
  refine (body.bind fun body body' same => .pure ?_ : SameBy id _ _).eq
  exact Piece.render_congr same locales

private theorem render_resolve_withMetadata (context : Context m) (locales : List Locale) (message : Message)
    (bag : Metadata) :
    Piece.render locales <$> context.resolve (message.withMetadata bag) =
      Piece.render locales <$> context.resolve message := by
  rw [render_resolve, render_resolve]
  rfl

end depths

section formatters

/-- The formatter whose terms refer to messages without metadata. -/
def Formatter.bare (formatter : Formatter m) : Formatter m :=
  { formatter with catalog := formatter.catalog.bare }

theorem Catalog.get?_bare (catalog : Catalog) (resource : String) (path : List String) :
    catalog.bare.get? resource path = (catalog.get? resource path).map Message.bare := by
  have resources : catalog.bare.resources.lookup resource =
    (catalog.resources.lookup resource).map fun messages =>
      messages.map fun stored => (stored.1, stored.2.bare) := Keyed.lookup_map ..
  unfold get?
  rw [resources]
  cases catalog.resources.lookup resource with
  | none => rfl
  | some messages => exact Keyed.lookup_map Message.bare path messages

theorem Formatter.context_bare (formatter : Formatter m) (scope : Scope) :
    formatter.bare.context scope = (formatter.context scope).bare := by
  have lookup : formatter.bare.catalog.get? =
      fun resource path => (formatter.catalog.get? resource path).map Message.bare := by
    funext resource path
    exact formatter.catalog.get?_bare resource path
  unfold context
  rw [lookup]
  rfl

variable [Monad m] [LawfulMonad m]

theorem Formatter.format_eq (formatter : Formatter m) (message : Message) (scope : Scope) :
    formatter.format message scope =
      Piece.render formatter.locales <$> (formatter.context scope).resolve message :=
  (map_eq_pure_bind ..).symm

/-- A message reads the same, or fails in the same way, when all metadata is taken from it and from
the messages that its terms refer to, and when any is attached to it. -/
theorem format_regardless_of_metadata (message : Message) :
    (∀ (context : Context m) (locales : List Locale),
      Piece.render locales <$> context.bare.resolve message.bare =
        Piece.render locales <$> context.resolve message ∧
      ∀ bag, Piece.render locales <$> context.resolve (message.withMetadata bag) =
        Piece.render locales <$> context.resolve message) ∧
    ∀ (formatter : Formatter m) (scope : Scope),
      formatter.bare.format message.bare scope = formatter.format message scope ∧
      ∀ bag, formatter.format (message.withMetadata bag) scope = formatter.format message scope := by
  constructor
  · intro context locales
    exact ⟨render_resolve_bare _ locales message, render_resolve_withMetadata _ locales message⟩
  · intro formatter scope
    simp only [Formatter.format_eq, formatter.context_bare]
    exact ⟨render_resolve_bare _ _ message, render_resolve_withMetadata _ _ message⟩

/-- A greeting with notes on every part: they wrap its pieces into one, and its text stays. -/
theorem format_regardless_of_metadata_greeting :
    let note := Metadata.ofList [("origin", .text "form")]
    let name := (Message.ofParts [.literal "Ada" (some note)]).withMetadata note
    let message := (Message.ofParts [.literal "Hello " (some note),
      .term ⟨none, [.literal "name" (some note)], [], some note⟩]).withMetadata note
    let formatter : Formatter Id :=
      ⟨[], .empty, Catalog.empty.insert "default" ["name"] name, "default", 64⟩
    (∃ pieces bag, CanEnd (formatter.pieces message .empty) (.ok [.message pieces bag])) ∧
    (∃ first second, CanEnd (formatter.bare.pieces message.bare .empty) (.ok [first, second])) ∧
    CanEnd (formatter.bare.format message.bare .empty) (.ok "Hello Ada") ∧
    CanEnd (formatter.format message .empty) (.ok "Hello Ada") ∧
    CanEnd (formatter.format (message.withMetadata .empty) .empty) (.ok "Hello Ada") := by
  intro note name message formatter
  obtain ⟨-, regardless⟩ := format_regardless_of_metadata (m := Id) message
  obtain ⟨bare, attached⟩ := regardless formatter .empty
  have text : CanEnd (formatter.format message .empty) (.ok "Hello Ada") := rfl
  exact ⟨⟨_, _, rfl⟩, ⟨_, _, rfl⟩, bare ▸ text, text, attached .empty ▸ text⟩

end formatters

end Phrasebook
