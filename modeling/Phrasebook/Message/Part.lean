import Phrasebook.Message.Operand
import Phrasebook.Value

namespace Phrasebook

/-- A function call. -/
structure Call where
  name : String
  arguments : List Operand
  options : Options
  metadata : Option Metadata

/-- A markup marker. -/
structure Markup where
  kind : MarkupKind
  name : String
  options : Options
  metadata : Option Metadata

/-- A reference to another message. The bindings hold while that message is resolved. -/
structure Term where
  /-- Where the message is looked up; without it, in the resource of the referring message. -/
  resource : Option String
  path : List Operand
  bindings : Options
  metadata : Option Metadata

inductive Part where
  | literal (text : String) (metadata : Option Metadata)
  | variable (path : List Operand) (metadata : Option Metadata)
  | call (node : Call)
  | markup (node : Markup)
  | term (node : Term)

namespace Call

/-- The call as a reader of diagnostics sees it. -/
def display (call : Call) : String :=
  call.name ++ "(" ++
    ", ".intercalate (Operand.displayAll call.arguments ++ call.options.displays) ++ ")"

end Call

namespace Markup

def display (markup : Markup) : String :=
  match markup.kind with
  | .opening => "+" ++ markup.name
  | .closing => "-" ++ markup.name
  | .standalone => "+" ++ markup.name ++ "/"

end Markup

namespace Term

def display (term : Term) : String :=
  let resource := (term.resource.map (· ++ "::")).getD ""
  let bindings :=
    if term.bindings.isEmpty then ""
    else "(" ++ ", ".intercalate term.bindings.displays ++ ")"
  "-" ++ resource ++ ".".intercalate (Operand.displayAll term.path) ++ bindings

end Term

namespace Part

instance : Inhabited Part := ⟨.literal "" none⟩

/-- The part that stands for an operand. -/
def ofOperand : Operand → Part
  | .literal text metadata => .literal text metadata
  | .variable path metadata => .variable path metadata

/-- The metadata of a part, if it has a bag. -/
def metadata : Part → Option Metadata
  | .literal _ bag => bag
  | .variable _ bag => bag
  | .call node => node.metadata
  | .markup node => node.metadata
  | .term node => node.metadata

def isLiteral : Part → Bool
  | .literal .. => true
  | _ => false

/-- The part as a reader of diagnostics sees it. -/
def display : Part → String
  | .literal text _ => text
  | .variable path bag => (Operand.variable path bag).display
  | .call node => node.display
  | .markup node => node.display
  | .term node => node.display

end Part

end Phrasebook
