import Phrasebook.Message.Pattern

namespace Phrasebook

/-- A key of a variant: a text, or the wildcard that matches everything. -/
inductive VariantKey where
  | literal (text : String)
  | wildcard
  deriving DecidableEq, Repr

/-- The key that a text stands for: a star is the wildcard. -/
def VariantKey.ofText (text : String) : VariantKey :=
  if text = "*" then .wildcard else .literal text

structure Variant where
  keys : List VariantKey
  value : Pattern

/-- A selector: the part whose value is compared with keys, and the key that matches any value. -/
structure Selector where
  value : Part
  default : Option String

/-- The key that matches whatever the selector resolves to. -/
def Selector.defaultKey (selector : Selector) : String := selector.default.getD "other"

/-- A local binding. Declarations are kept, and have no part in resolution. -/
structure Declaration where
  target : String
  value : Part

structure Select where
  declarations : List Declaration
  selectors : List Selector
  variants : List Variant

inductive Body where
  | pattern (node : Pattern)
  | select (node : Select)

structure Message where
  body : Body
  metadata : Option Metadata

namespace Message

instance : Inhabited Message := ⟨⟨.pattern default, none⟩⟩

/-- The message of a single pattern. -/
def ofParts (parts : List Part) : Message := ⟨.pattern (.ofParts parts), none⟩

def ofSelect (select : Select) : Message := ⟨.select select, none⟩

/-- Attaches a metadata bag. -/
def withMetadata (message : Message) (bag : Metadata) : Message :=
  { message with metadata := some bag }

end Message

end Phrasebook
