namespace Phrasebook

/-- A locale: its language, its region if it names one, and the whole of it in canonical form. -/
structure Locale where
  language : String
  region : Option String
  tag : String
  deriving DecidableEq, Repr

namespace Locale

/-- The locale of a language, or of a region of it. -/
def ofLanguage (language : String) (region : Option String) : Locale :=
  ⟨language, region, "-".intercalate (language :: region.toList)⟩

def english : Locale := .ofLanguage "en" none

end Locale

end Phrasebook
