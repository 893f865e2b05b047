import Phrasebook.Keyed
import Phrasebook.Metadata

namespace Phrasebook

/-- A text, or a variable with the path that leads to its value. The first segment of a path names a
binding, and each later one steps into the value found so far. -/
inductive Operand where
  | literal (text : String) (metadata : Option Metadata)
  | variable (path : List Operand) (metadata : Option Metadata)

instance : Inhabited Operand := ⟨.literal "" none⟩

namespace Operand

mutual

/-- The operand as a reader of diagnostics sees it. -/
def display : Operand → String
  | .literal text _ => text
  | .variable path _ => "$" ++ ".".intercalate (displayAll path)

def displayAll : List Operand → List String
  | [] => []
  | operand :: rest => display operand :: displayAll rest

end

/-- The variable whose path has the given names. -/
def ofNames (names : List String) : Operand :=
  .variable (names.map fun name => .literal name none) none

end Operand

/-- Option values by name, in the order in which the names came. -/
abbrev Options := List (String × Operand)

namespace Options

/-- Sets an option; one of that name is replaced in place. -/
def insert (options : Options) (name : String) (value : Operand) : Options :=
  Keyed.put name value options

def get? (options : Options) (name : String) : Option Operand := options.lookup name

/-- The options of a list of pairs, of which the last of a repeated name counts. -/
def ofPairs (pairs : List (String × Operand)) : Options := Keyed.ofPairs pairs

/-- The options as a reader of diagnostics sees them. -/
def displays (options : Options) : List String :=
  options.map fun entry => entry.1 ++ ": " ++ entry.2.display

end Options

end Phrasebook
