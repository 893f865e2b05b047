import Phrasebook.Value

/-!
Pieces: what the parts of a message resolve to. Every piece carries a metadata bag; an empty one
means that there is none.
-/

namespace Phrasebook

inductive Piece where
  /-- Text copied from the message. -/
  | literal (text : String) (metadata : Metadata)
  /-- The binding of a variable or what a function returned. -/
  | dynamic (value : Value) (metadata : Metadata)
  /-- A part that could not be resolved, with a reconstruction of its source. -/
  | fallback (source : String) (metadata : Metadata)
  /-- The pieces of a nested message. -/
  | message (pieces : List Piece) (metadata : Metadata)

namespace Piece

instance : Inhabited Piece := ⟨.literal "" .empty⟩

def metadata : Piece → Metadata
  | .literal _ bag => bag
  | .dynamic _ bag => bag
  | .fallback _ bag => bag
  | .message _ bag => bag

/-- Adds metadata. Keys that the piece has keep their values. -/
def withMetadata (piece : Piece) (extra : Metadata) : Piece :=
  match piece with
  | .literal text bag => .literal text (bag.merge extra)
  | .dynamic value bag => .dynamic value (bag.merge extra)
  | .fallback source bag => .fallback source (bag.merge extra)
  | .message pieces bag => .message pieces (bag.merge extra)

def isLiteral : Piece → Bool
  | .literal .. => true
  | _ => false

def isFallback : Piece → Bool
  | .fallback .. => true
  | _ => false

mutual

/-- The text of a piece for the given locales. A fallback stands in braces. -/
def localized (locales : List Locale) : Piece → String
  | .literal text _ => text
  | .dynamic value _ => value.localized locales
  | .fallback source _ => "\x7b" ++ source ++ "\x7d"
  | .message pieces _ => render locales pieces

/-- The texts of pieces, one after the other. -/
def render (locales : List Locale) : List Piece → String
  | [] => ""
  | piece :: rest => localized locales piece ++ render locales rest

end

/-- The text of a piece without regard to locales. -/
def display (piece : Piece) : String := piece.localized []

/-- The raw value of a piece. A fallback gives its source without braces, a nested message its
text without regard to locales. -/
def value : Piece → Value
  | .literal text _ => .text text
  | .dynamic value _ => value
  | .fallback source _ => .text source
  | .message pieces _ => .text (render [] pieces)

end Piece

end Phrasebook
