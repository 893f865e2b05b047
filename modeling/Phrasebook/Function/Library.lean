import Phrasebook.Function.Failure
import Phrasebook.Function.Schema
import Phrasebook.Piece

/-!
Functions and the libraries that messages call them from. A function runs in a monad of the host's
choice: in `Id` it depends on its invocation alone, in a state monad also on what was called before.
-/

namespace Phrasebook

/-- What a function is given. -/
structure Invocation where
  /-- The locales to write for, the most preferred first. -/
  locales : List Locale
  /-- The options that its schema let through. -/
  options : List (String × Value)
  arguments : List Value

/-- The value of an option. -/
def Invocation.option? (invocation : Invocation) (name : String) : Option Value :=
  invocation.options.lookup name

/-- What a function returns: a value, or a piece that is ready for output. -/
inductive Output where
  | value (value : Value)
  | piece (piece : Piece)

def Output.toValue : Output → Value
  | .value plain => plain
  | .piece ready => ready.value

/-- How a function ends: it returns, it fails, or it breaks off with a report that may be text. -/
inductive Outcome where
  | returned (output : Output)
  | failed (failure : Failure)
  | aborted (report : Option String)

/-- A function that breaks off fails. -/
def Outcome.result : Outcome → Except Failure Output
  | .returned output => .ok output
  | .failed failure => .error failure
  | .aborted report => .error (.aborted report)

structure Function (m : Type → Type) where
  run : Invocation → m Outcome
  schema : OptionSchema

/-- Calls a function. -/
def Function.call [Monad m] (function : Function m) (invocation : Invocation) :
    m (Except Failure Output) := do
  return (← function.run invocation).result

/-- The functions that messages may call, each list in increasing order of names. Formatters run in
patterns, selectors where a value is compared with keys. -/
structure Library (m : Type → Type) where
  formatters : List (String × Function m)
  selectors : List (String × Function m)
  formatters_ascending : Keyed.Ascending formatters
  selectors_ascending : Keyed.Ascending selectors

namespace Library

def empty : Library m := ⟨[], [], .nil, .nil⟩

/-- Adds a formatter; one of that name is replaced. -/
def addFormatter (library : Library m) (name : String) (function : Function m) : Library m :=
  { library with
    formatters := Keyed.putSorted name function library.formatters
    formatters_ascending := library.formatters_ascending.putSorted name function }

/-- Adds a selector; one of that name is replaced. -/
def addSelector (library : Library m) (name : String) (function : Function m) : Library m :=
  { library with
    selectors := Keyed.putSorted name function library.selectors
    selectors_ascending := library.selectors_ascending.putSorted name function }

def formatter? (library : Library m) (name : String) : Option (Function m) :=
  library.formatters.lookup name

def selector? (library : Library m) (name : String) : Option (Function m) :=
  library.selectors.lookup name

/-- The names of the formatters, in increasing order. -/
def formatterNames (library : Library m) : List String := library.formatters.map Prod.fst

end Library

end Phrasebook
