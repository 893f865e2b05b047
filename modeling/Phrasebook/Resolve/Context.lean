import Phrasebook.Catalog
import Phrasebook.Function.Library
import Phrasebook.Scope

/-!
What a message is resolved in: locales, functions, a lookup of other messages, a scope, and the terms
that are being resolved around it.
-/

namespace Phrasebook

/-- Why a message as a whole cannot be resolved. Only terms that refer to each other without end
come to this. -/
inductive ResolveError where
  /-- A term refers to a message that is being resolved; the chain ends with it. -/
  | cyclicReference (chain : List String)
  | maxDepthExceeded (maxDepth : Nat)
  deriving DecidableEq, Repr

def ResolveError.message : ResolveError → String
  | .cyclicReference chain => "cyclic term reference detected: " ++ " -> ".intercalate chain
  | .maxDepthExceeded maxDepth => "maximum term depth of " ++ toString maxDepth ++ " exceeded"

/-- The message at a path of a resource, if there is one. -/
abbrev Lookup := String → List String → Option Message

structure Context (m : Type → Type) where
  locales : List Locale
  library : Library m
  lookup : Lookup
  scope : Scope
  /-- The resource of terms that name none. -/
  resource : String
  /-- The keys of the terms being resolved, the outermost first. -/
  callStack : List String
  maxDepth : Nat

namespace Context

/-- The resource of terms that name none, unless another is set. -/
def defaultResource : String := "default"

/-- The limit on nested terms, unless another is set. -/
def defaultMaxDepth : Nat := 64

/-- How many terms the present one is nested in. -/
def depth (context : Context m) : Nat := context.callStack.length

/-- How many more terms may be nested. -/
def remaining (context : Context m) : Nat := context.maxDepth - context.depth

/-- The key of a message on the call stack. -/
def key (resource : String) (path : List String) : String :=
  resource ++ "::" ++ ".".intercalate path

/-- The context of a term's target, unless that target is being resolved. -/
def enter (context : Context m) (resource : String) (path : List String) (scope : Scope) :
    Except ResolveError (Context m) :=
  let entry := key resource path
  if entry ∈ context.callStack then .error (.cyclicReference (context.callStack ++ [entry]))
  else .ok { context with scope, resource, callStack := context.callStack ++ [entry] }

end Context

end Phrasebook
