import Phrasebook.Resolve.Basic
import Phrasebook.Stock.Library

/-!
Formatters: messages to text with fixed locales, functions and terms.
-/

namespace Phrasebook

structure Formatter (m : Type → Type) where
  /-- The locales to write for, the most preferred first. -/
  locales : List Locale
  library : Library m
  /-- The messages that terms may refer to. -/
  catalog : Catalog
  /-- The resource of terms that name none. -/
  resource : String
  maxDepth : Nat

namespace Formatter

variable [Monad m]

/-- No locales, the stock library and no terms. -/
def standard (plurals : Plural.Library) : Formatter m :=
  ⟨[], Stock.library plurals, .empty, Context.defaultResource, Context.defaultMaxDepth⟩

/-- The outermost context for a scope. -/
def context (formatter : Formatter m) (scope : Scope) : Context m where
  locales := formatter.locales
  library := formatter.library
  lookup := formatter.catalog.get?
  scope := scope
  resource := formatter.resource
  callStack := []
  maxDepth := formatter.maxDepth

/-- The pieces of a message. -/
def pieces (formatter : Formatter m) (message : Message) (scope : Scope) :
    Resolution m (List Piece) :=
  (formatter.context scope).resolve message

/-- The text of a message. -/
def format (formatter : Formatter m) (message : Message) (scope : Scope) : Resolution m String := do
  return Piece.render formatter.locales (← formatter.pieces message scope)

/-- The value of a message: that of its piece if it has exactly one, else its text. -/
def value (formatter : Formatter m) (message : Message) (scope : Scope) : Resolution m Value := do
  match ← formatter.pieces message scope with
  | [piece] => pure piece.value
  | pieces => pure (.text (Piece.render formatter.locales pieces))

end Formatter

end Phrasebook
