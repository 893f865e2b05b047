import Phrasebook.Plural.Rule

/-!
The plural rules of cardinal numbers: one day, two days.
-/

namespace Phrasebook.Plural

open OperandName

/-- Millions of compact numbers, which French and its neighbours count as nouns. -/
private def millions : Condition :=
  [[isIn e [0], notIn i [0], isIn (i % 1000000) [0], isIn v [0]], [notIn e [⟨0, 5⟩]]]

private def singleInteger : Condition := [[isIn i [1], isIn v [0]]]

private def singleNumber : Condition := [[isIn n [1]]]

/-- Rules that ask only whether there is one. -/
def singular : Rules := { one := singleNumber }

/-- One is singular, and millions are a category of their own. -/
def singularAndMillions : Rules := { one := singleInteger, many := millions }

def cardinalGroups : List RuleGroup := [
  ⟨["lv", "prg"],
    { zero := [[isIn (n % 10) [0]], [isIn (n % 100) [⟨11, 19⟩]],
        [isIn v [2], isIn (f % 100) [⟨11, 19⟩]]]
      one := [[isIn (n % 10) [1], notIn (n % 100) [11]],
        [isIn v [2], isIn (f % 10) [1], notIn (f % 100) [11]],
        [notIn v [2], isIn (f % 10) [1]]] }⟩,
  ⟨["blo", "ksh", "cv"], { zero := [[isIn n [0]]], one := singleNumber }⟩,
  ⟨["cy"],
    { zero := [[isIn n [0]]], one := singleNumber, two := [[isIn n [2]]], few := [[isIn n [3]]]
      many := [[isIn n [6]]] }⟩,
  ⟨["ar"],
    { zero := [[isIn n [0]]], one := singleNumber, two := [[isIn n [2]]]
      few := [[isIn (n % 100) [⟨3, 10⟩]]], many := [[isIn (n % 100) [⟨11, 99⟩]]] }⟩,
  ⟨["am", "as", "bn", "doi", "fa", "gu", "hi", "kn", "kok", "pcm", "tg", "vi", "zu"],
    { one := [[isIn i [0]], [isIn n [1]]] }⟩,
  ⟨["hy"], { one := [[isIn i [0, 1]]] }⟩,
  ⟨["fr"], { one := [[isIn i [0, 1]]], many := millions }⟩,
  ⟨["pt"], { one := [[isIn i [⟨0, 1⟩]]], many := millions }⟩,
  ⟨["ca", "gl", "it", "lld", "scn", "vec"], singularAndMillions⟩,
  ⟨["es"], { one := singleNumber, many := millions }⟩,
  ⟨["ast", "de", "en", "et", "fi", "fy", "ia", "ie", "lij", "nl", "sc", "sv", "sw", "ur"],
    { one := singleInteger }⟩,
  ⟨["si"], { one := [[isIn n [0, 1]], [isIn i [0], isIn f [1]]] }⟩,
  ⟨["ak", "bho", "csw", "nso", "pa", "ti"], { one := [[isIn n [⟨0, 1⟩]]] }⟩,
  ⟨["af", "az", "bg", "brx", "chr", "ckb", "ee", "el", "eo", "eu", "fo", "ha", "hu", "ka", "kk", "ks",
      "ku", "ky", "lb", "ml", "mn", "mr", "nb", "ne", "nn", "no", "om", "or", "ps", "rm", "sd", "so",
      "sq", "st", "syr", "ta", "te", "tk", "tn", "tr", "ug", "uz", "xh"],
    singular⟩,
  ⟨["da"], { one := [[isIn n [1]], [notIn t [0], isIn i [0, 1]]] }⟩,
  ⟨["is"],
    { one := [[isIn t [0], isIn (i % 10) [1], notIn (i % 100) [11]],
        [isIn (t % 10) [1], notIn (t % 100) [11]]] }⟩,
  ⟨["mk"],
    { one := [[isIn v [0], isIn (i % 10) [1], notIn (i % 100) [11]],
        [isIn (f % 10) [1], notIn (f % 100) [11]]] }⟩,
  ⟨["ceb", "fil"],
    { one := [[isIn v [0], isIn i [1, 2, 3]], [isIn v [0], notIn (i % 10) [4, 6, 9]],
        [notIn v [0], notIn (f % 10) [4, 6, 9]]] }⟩,
  ⟨["he"],
    { one := [[isIn i [1], isIn v [0]], [isIn i [0], notIn v [0]]]
      two := [[isIn i [2], isIn v [0]]] }⟩,
  ⟨["sat"], { one := singleNumber, two := [[isIn n [2]]] }⟩,
  ⟨["ro"],
    { one := singleInteger
      few := [[notIn v [0]], [isIn n [0]], [notIn n [1], isIn (n % 100) [⟨1, 19⟩]]] }⟩,
  ⟨["bs", "hr", "sr"],
    { one := [[isIn v [0], isIn (i % 10) [1], notIn (i % 100) [11]],
        [isIn (f % 10) [1], notIn (f % 100) [11]]]
      few := [[isIn v [0], isIn (i % 10) [⟨2, 4⟩], notIn (i % 100) [⟨12, 14⟩]],
        [isIn (f % 10) [⟨2, 4⟩], notIn (f % 100) [⟨12, 14⟩]]] }⟩,
  ⟨["gd"],
    { one := [[isIn n [1, 11]]], two := [[isIn n [2, 12]]]
      few := [[isIn n [⟨3, 10⟩, ⟨13, 19⟩]]] }⟩,
  ⟨["sl"],
    { one := [[isIn v [0], isIn (i % 100) [1]]], two := [[isIn v [0], isIn (i % 100) [2]]]
      few := [[isIn v [0], isIn (i % 100) [⟨3, 4⟩]], [notIn v [0]]] }⟩,
  ⟨["dsb", "hsb"],
    { one := [[isIn v [0], isIn (i % 100) [1]], [isIn (f % 100) [1]]]
      two := [[isIn v [0], isIn (i % 100) [2]], [isIn (f % 100) [2]]]
      few := [[isIn v [0], isIn (i % 100) [⟨3, 4⟩]], [isIn (f % 100) [⟨3, 4⟩]]] }⟩,
  ⟨["cs", "sk"],
    { one := singleInteger, few := [[isIn i [⟨2, 4⟩], isIn v [0]]], many := [[notIn v [0]]] }⟩,
  ⟨["pl"],
    { one := singleInteger
      few := [[isIn v [0], isIn (i % 10) [⟨2, 4⟩], notIn (i % 100) [⟨12, 14⟩]]]
      many := [[isIn v [0], notIn i [1], isIn (i % 10) [⟨0, 1⟩]],
        [isIn v [0], isIn (i % 10) [⟨5, 9⟩]], [isIn v [0], isIn (i % 100) [⟨12, 14⟩]]] }⟩,
  ⟨["be"],
    { one := [[isIn (n % 10) [1], notIn (n % 100) [11]]]
      few := [[isIn (n % 10) [⟨2, 4⟩], notIn (n % 100) [⟨12, 14⟩]]]
      many := [[isIn (n % 10) [0]], [isIn (n % 10) [⟨5, 9⟩]], [isIn (n % 100) [⟨11, 14⟩]]] }⟩,
  ⟨["lt"],
    { one := [[isIn (n % 10) [1], notIn (n % 100) [⟨11, 19⟩]]]
      few := [[isIn (n % 10) [⟨2, 9⟩], notIn (n % 100) [⟨11, 19⟩]]]
      many := [[notIn f [0]]] }⟩,
  ⟨["ru", "uk"],
    { one := [[isIn v [0], isIn (i % 10) [1], notIn (i % 100) [11]]]
      few := [[isIn v [0], isIn (i % 10) [⟨2, 4⟩], notIn (i % 100) [⟨12, 14⟩]]]
      many := [[isIn v [0], isIn (i % 10) [0]], [isIn v [0], isIn (i % 10) [⟨5, 9⟩]],
        [isIn v [0], isIn (i % 100) [⟨11, 14⟩]]] }⟩,
  ⟨["br"],
    { one := [[isIn (n % 10) [1], notIn (n % 100) [11, 71, 91]]]
      two := [[isIn (n % 10) [2], notIn (n % 100) [12, 72, 92]]]
      few := [[isIn (n % 10) [3, 4, 9], notIn (n % 100) [⟨10, 19⟩, ⟨70, 79⟩, ⟨90, 99⟩]]]
      many := [[notIn n [0], isIn (n % 1000000) [0]]] }⟩,
  ⟨["mt"],
    { one := singleNumber, two := [[isIn n [2]]]
      few := [[isIn n [0]], [isIn (n % 100) [⟨3, 10⟩]]]
      many := [[isIn (n % 100) [⟨11, 19⟩]]] }⟩,
  ⟨["ga"],
    { one := singleNumber, two := [[isIn n [2]]], few := [[isIn n [⟨3, 6⟩]]]
      many := [[isIn n [⟨7, 10⟩]]] }⟩]

/-- Regions with rules of their own. Portuguese has those of Portugal in most of its regions; the
regions after it write their language in another script than its usual one, and have no rules. -/
def cardinalRegions : List RegionalRules := [
  ⟨"pt", ["AO", "CH", "CV", "FR", "GQ", "GW", "LU", "MO", "MZ", "PT", "ST", "TL"],
    singularAndMillions⟩,
  ⟨"az", ["IQ", "IR", "RU"], .none⟩,
  ⟨"ha", ["CM", "SD"], .none⟩,
  ⟨"kk", ["AF", "CN", "IR", "MN"], .none⟩,
  ⟨"ku", ["AM", "AZ", "GE", "IQ", "IR", "LB", "TM"], .none⟩,
  ⟨"ky", ["CN", "TR"], .none⟩,
  ⟨"mn", ["CN"], .none⟩,
  ⟨"pa", ["PK"], .none⟩,
  ⟨"sd", ["IN"], .none⟩,
  ⟨"sr", ["ME", "RO", "TR"], .none⟩,
  ⟨"tg", ["PK"], .none⟩,
  ⟨"ug", ["KZ", "MN"], .none⟩,
  ⟨"uz", ["AF", "CN"], .none⟩]

end Phrasebook.Plural
