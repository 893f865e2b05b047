import Phrasebook.Stock.Number
import Phrasebook.Stock.Plural

namespace Phrasebook.Stock

/-- A function whose result depends on its invocation alone. -/
def pureFunction [Monad m] (body : Invocation → Except Failure Value) (schema : OptionSchema) :
    Function m where
  run invocation := pure <|
    match body invocation with
    | .ok value => .returned (.value value)
    | .error failure => .failed failure
  schema := schema

variable [Monad m]

def numberFunction : Function m :=
  pureFunction number
    (.each [("maximumFractionDigits", .number), ("minimumFractionDigits", .number)])

def stringFunction : Function m := pureFunction string .none

def pluralFunction (plurals : Plural.Library) : Function m :=
  pureFunction (plural plurals) (.each [("type", .oneOf ["cardinal", "ordinal"])])

def ordinalFunction (plurals : Plural.Library) : Function m := pureFunction (ordinal plurals) .none

/-- The stock functions under their names. -/
def library (plurals : Plural.Library) : Library m :=
  Library.empty
    |>.addFormatter "number" numberFunction
    |>.addFormatter "string" stringFunction
    |>.addSelector "plural" (pluralFunction plurals)
    |>.addSelector "ordinal" (ordinalFunction plurals)

end Phrasebook.Stock
