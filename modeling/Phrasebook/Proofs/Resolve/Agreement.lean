import Mathlib.Data.List.Basic
import Phrasebook.Resolve.Basic

namespace Phrasebook

section paths

/-- The path that is looked up for an operand, if it is a variable. A segment may be a variable in
turn, and counts with the path. -/
def Operand.paths : Operand → List (List Operand)
  | .literal .. => []
  | .variable path _ => [path]

def Options.paths (options : Options) : List (List Operand) :=
  options.flatMap fun entry => entry.2.paths

def Call.paths (call : Call) : List (List Operand) :=
  call.arguments.flatMap Operand.paths ++ call.options.paths

/-- The paths that are looked up for a part. -/
def Part.paths : Part → List (List Operand)
  | .literal .. => []
  | .variable path _ => [path]
  | .call node => node.paths
  | .markup node => node.options.paths
  | .term node => node.path.flatMap Operand.paths ++ node.bindings.paths

/-- Every one of the paths leads to the same value in both scopes, or to none in either. -/
def Scope.AgreesOn (scope other : Scope) (paths : List (List Operand)) : Prop :=
  ∀ path ∈ paths, scope.follow? path = other.follow? path

namespace Scope.AgreesOn

variable {scope other : Scope}

theorem variablePiece_eq {path : List Operand} (agree : scope.AgreesOn other [path])
    (metadata : Option Metadata) :
    variablePiece scope path metadata = variablePiece other path metadata := by
  simp only [variablePiece, agree path (List.mem_singleton_self path)]

private theorem resolveOption?_eq {operand : Operand} (agree : scope.AgreesOn other operand.paths)
    (schema : OptionSchema) (name : String) :
    resolveOption? schema scope name operand = resolveOption? schema other name operand := by
  cases operand with
  | literal text metadata => rfl
  | «variable» path metadata =>
    simp only [resolveOption?, agree path (List.mem_singleton_self path)]

theorem resolveOptions_eq {options : Options} (agree : scope.AgreesOn other options.paths)
    (schema : OptionSchema) :
    resolveOptions options schema scope = resolveOptions options schema other := by
  have each (entry) (listed : entry ∈ options) : scope.AgreesOn other entry.2.paths :=
    fun path member => agree path (List.mem_flatMap.mpr ⟨entry, listed, member⟩)
  exact congrArg Keyed.sortedOfPairs
    (List.filterMap_congr fun entry listed => by rw [(each entry listed).resolveOption?_eq])

theorem resolveArguments_eq {operands : List Operand}
    (agree : scope.AgreesOn other (operands.flatMap Operand.paths)) :
    resolveArguments scope operands = resolveArguments other operands := by
  induction operands with
  | nil => rfl
  | cons operand operands ih =>
    obtain ⟨first, rest⟩ := List.forall_mem_append.mp (List.flatMap_cons ▸ agree)
    cases operand with
    | literal text metadata => simp only [resolveArguments, ih rest]
    | «variable» path metadata =>
      simp only [resolveArguments, first path (List.mem_singleton_self path), ih rest]

end Scope.AgreesOn

end paths

section names

/-- Every name has the same value in both scopes, or none in either. -/
def Scope.Agrees (scope other : Scope) : Prop := ∀ name, scope.get? name = other.get? name

namespace Scope.Agrees

variable {scope other : Scope}

theorem refl (scope : Scope) : scope.Agrees scope := fun _ => rfl

theorem extend (agree : scope.Agrees other) (bindings : List (String × Value)) :
    (scope.extend bindings).Agrees (other.extend bindings) := by
  intro name
  rw [get?_extend, get?_extend, agree name]

private theorem extend_nil (agree : scope.Agrees other) : scope.Agrees (other.extend []) := by
  intro name
  rw [get?_extend, ← agree name]
  rfl

mutual

private theorem segment?_eq (agree : scope.Agrees other) :
    ∀ segment : Operand, scope.segment? segment = other.segment? segment
  | .literal text _ => rfl
  | .variable path _ => by simp only [segment?, agree.follow?_eq path]

private theorem follow?_eq (agree : scope.Agrees other) :
    ∀ path : List Operand, scope.follow? path = other.follow? path
  | [] => rfl
  | first :: rest => by simp only [follow?, agree.segment?_eq first, agree _, agree.step?_eq rest]

theorem step?_eq (agree : scope.Agrees other) :
    ∀ (path : List Operand) (value : Value), scope.step? value path = other.step? value path
  | [], _ => rfl
  | segment :: rest, _ => by simp only [step?, agree.segment?_eq segment, agree.step?_eq rest]

end

theorem on (agree : scope.Agrees other) (paths : List (List Operand)) :
    scope.AgreesOn other paths := fun path _ => agree.follow?_eq path

theorem target_eq (agree : scope.Agrees other) (term : Term) :
    term.target scope = term.target other := by
  simp only [Term.target, agree.segment?_eq]

theorem term (agree : scope.Agrees other) (term : Term) :
    (term.scope scope).Agrees (term.scope other) := by
  simp only [Term.scope, (agree.on _).resolveOptions_eq]
  split
  · exact agree.extend _
  · exact agree

/-- The target of a term sees the bindings of the term over the scope of the term. Where the term adds
no layer, it has no bindings. -/
theorem term_extend (term : Term) (scope : Scope) :
    (term.scope scope).Agrees (scope.extend (resolveOptions term.bindings .any scope)) := by
  unfold Term.scope
  split
  · exact .refl _
  · next plain =>
    have unbound : term.bindings = [] := by
      simp only [Bool.or_eq_true, not_or, Bool.not_eq_true', Bool.not_eq_false] at plain
      exact List.isEmpty_iff.mp plain.2
    rw [unbound]
    exact (refl scope).extend_nil

end Scope.Agrees

end names

section contexts

/-- The contexts have the same functions and locales, and scopes that agree on the paths. -/
structure Context.AlikeOn (context other : Context m) (paths : List (List Operand)) : Prop where
  locales : context.locales = other.locales
  library : context.library = other.library
  scope : context.scope.AgreesOn other.scope paths

namespace Context.AlikeOn

variable {context other : Context m}

theorem markupPiece_eq {markup : Markup} (alike : context.AlikeOn other markup.options.paths) :
    markupPiece context markup = markupPiece other markup := by
  simp only [markupPiece, alike.library, alike.scope.resolveOptions_eq]

variable [Monad m]

theorem callPiece_eq {call : Call} (alike : context.AlikeOn other call.paths) :
    callPiece context call = callPiece other call := by
  obtain ⟨arguments, options⟩ := List.forall_mem_append.mp alike.scope
  simp only [callPiece, alike.library, alike.locales, Scope.AgreesOn.resolveOptions_eq options,
    Scope.AgreesOn.resolveArguments_eq arguments]

theorem selectorCall_eq {call : Call} (alike : context.AlikeOn other call.paths) :
    selectorCall context call = selectorCall other call := by
  obtain ⟨arguments, options⟩ := List.forall_mem_append.mp alike.scope
  simp only [selectorCall, alike.library, alike.locales, Scope.AgreesOn.resolveOptions_eq options,
    Scope.AgreesOn.resolveArguments_eq arguments]

theorem pluralForms_eq {paths : List (List Operand)} (alike : context.AlikeOn other paths)
    (value : Value) : pluralForms context value = pluralForms other value := by
  simp only [pluralForms, alike.library, alike.locales]

end Context.AlikeOn

/-- The contexts are the same up to scopes that agree, the terms around them and the limit. -/
structure Context.Alike (context other : Context m) : Prop where
  locales : context.locales = other.locales
  library : context.library = other.library
  lookup : context.lookup = other.lookup
  scope : context.scope.Agrees other.scope
  resource : context.resource = other.resource

namespace Context.Alike

variable {context other : Context m}

theorem refl (context : Context m) : context.Alike context := ⟨rfl, rfl, rfl, .refl _, rfl⟩

theorem inside (alike : context.Alike other) {scope scope' : Scope} (agree : scope.Agrees scope')
    (resource : String) (callStack callStack' : List String) :
    Context.Alike { context with scope, resource, callStack }
      { other with scope := scope', resource, callStack := callStack' } :=
  ⟨alike.locales, alike.library, alike.lookup, agree, rfl⟩

theorem on (alike : context.Alike other) (paths : List (List Operand)) :
    context.AlikeOn other paths :=
  ⟨alike.locales, alike.library, alike.scope.on paths⟩

end Context.Alike

end contexts

end Phrasebook
