/-!
Failures of functions. Each has a name, a message and a chain of causes, the direct one first.
-/

namespace Phrasebook

structure Failure where
  name : String
  message : String
  causes : List String := []
  deriving DecidableEq, Repr

namespace Failure

/-- An argument or option of the wrong type. -/
def typeError (message : String) : Failure := { name := "TypeError", message }

/-- A value outside what the function supports. -/
def rangeError (message : String) (causes : List String) : Failure :=
  { name := "RangeError", message, causes }

/-- A call of a function that is not there, with names that come close. -/
def missing (name : String) (suggestions : List String) : Failure :=
  let hint :=
    if suggestions.isEmpty then ""
    else "; did you mean: " ++ ", ".intercalate suggestions ++ "?"
  { name := "MissingFunction", message := "unknown function '" ++ name ++ "'" ++ hint }

/-- A call with a variable that has no value. -/
def unresolved (source : String) : Failure :=
  { name := "UnresolvedVariable", message := "unresolved variable " ++ source }

/-- A function that broke off, with what it reported if that was text. -/
def aborted (report : Option String) : Failure :=
  { name := "Panic", message := report.getD "function panicked" }

/-- Name and message in one line. -/
def display (failure : Failure) : String := failure.name ++ ": " ++ failure.message

/-- The failure and its causes, one a line. -/
def stack (failure : Failure) : String :=
  failure.display ++ String.join (failure.causes.map ("\ncaused by: " ++ ·))

end Failure

end Phrasebook
