import Phrasebook.Plural.Cardinal
import Phrasebook.Plural.Ordinal

namespace Phrasebook.Plural

def Kind.groups : Kind → List RuleGroup
  | .cardinal => cardinalGroups
  | .ordinal => ordinalGroups

def Kind.regions : Kind → List RegionalRules
  | .cardinal => cardinalRegions
  | .ordinal => ordinalRegions

/-- The rules of a region of a language, if it has its own. -/
def regionalRules? (kind : Kind) (language region : String) : Option Rules :=
  (kind.regions.find? fun row => row.language == language && row.regions.contains region).map
    RegionalRules.rules

/-- The rules of a language; one that is not listed has none. -/
def languageRules (kind : Kind) (language : String) : Rules :=
  ((kind.groups.find? fun group => group.languages.contains language).map RuleGroup.rules).getD
    .none

/-- The rules of a locale: those of its region if there are some, else those of its language. -/
def rulesOf (kind : Kind) (locale : Locale) : Rules :=
  (locale.region.bind (regionalRules? kind locale.language)).getD
    (languageRules kind locale.language)

/-- The library of the rules that are listed here. It has rules for every locale, as those without rules
of their own put every number into one category. -/
def Library.listed : Library where
  Operands := Plural.Operands
  ofInt n := Plural.Operands.ofInt n.toInt
  read? text := Plural.Operands.ofText? text.toList
  rules kind locale := .ok (rulesOf kind locale).category

end Phrasebook.Plural
