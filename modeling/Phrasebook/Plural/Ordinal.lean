import Phrasebook.Plural.Rule

/-!
The plural rules of ordinal numbers: 1st, 2nd.
-/

namespace Phrasebook.Plural

open OperandName

def ordinalGroups : List RuleGroup := [
  ⟨["blo"], { zero := [[isIn i [0]]], one := [[isIn i [1]]], few := [[isIn i [⟨2, 6⟩]]] }⟩,
  ⟨["cy"],
    { zero := [[isIn n [0, 7, 8, 9]]], one := [[isIn n [1]]], two := [[isIn n [2]]]
      few := [[isIn n [3, 4]]], many := [[isIn n [5, 6]]] }⟩,
  ⟨["mk"],
    { one := [[isIn (i % 10) [1], notIn (i % 100) [11]]]
      two := [[isIn (i % 10) [2], notIn (i % 100) [12]]]
      many := [[isIn (i % 10) [7, 8], notIn (i % 100) [17, 18]]] }⟩,
  ⟨["bg"],
    { one := [[isIn (i % 10) [1], notIn (i % 100) [11]]]
      two := [[isIn (i % 10) [2], notIn (i % 100) [12]]]
      few := [[isIn (i % 10) [3, 4], notIn (i % 100) [13, 14]]] }⟩,
  ⟨["az"],
    { one := [[isIn (i % 10) [1, 2, 5, 7, 8]], [isIn (i % 100) [20, 50, 70, 80]]]
      few := [[isIn (i % 10) [3, 4]],
        [isIn (i % 1000) [100, 200, 300, 400, 500, 600, 700, 800, 900]]]
      many := [[isIn i [0]], [isIn (i % 10) [6]], [isIn (i % 100) [40, 60, 90]]] }⟩,
  ⟨["en"],
    { one := [[isIn (n % 10) [1], notIn (n % 100) [11]]]
      two := [[isIn (n % 10) [2], notIn (n % 100) [12]]]
      few := [[isIn (n % 10) [3], notIn (n % 100) [13]]] }⟩,
  ⟨["sv"], { one := [[isIn (n % 10) [1, 2], notIn (n % 100) [11, 12]]] }⟩,
  ⟨["es"], { one := [[isIn (n % 10) [1, 3], notIn (n % 100) [11]]] }⟩,
  ⟨["fil", "fr", "ga", "hy", "lo", "ms", "ro", "vi"], { one := [[isIn n [1]]] }⟩,
  ⟨["hu"], { one := [[isIn n [1, 5]]] }⟩,
  ⟨["ne"], { one := [[isIn n [⟨1, 4⟩]]] }⟩,
  ⟨["be"], { few := [[isIn (n % 10) [2, 3], notIn (n % 100) [12, 13]]] }⟩,
  ⟨["uk"], { few := [[isIn (n % 10) [3], notIn (n % 100) [13]]] }⟩,
  ⟨["af"], { few := [[isIn (i % 100) [⟨2, 19⟩]]] }⟩,
  ⟨["tk"], { few := [[isIn (n % 10) [6, 9]], [isIn n [10]]] }⟩,
  ⟨["kk"],
    { many := [[isIn (n % 10) [6]], [isIn (n % 10) [9]], [isIn (n % 10) [0], notIn n [0]]] }⟩,
  ⟨["it", "lld", "sc", "vec"], { many := [[isIn n [8, 11, 80, 800]]] }⟩,
  ⟨["lij", "scn"], { many := [[isIn n [8, 11, ⟨80, 89⟩, ⟨800, 899⟩]]] }⟩,
  ⟨["ka"],
    { one := [[isIn i [1]]]
      many := [[isIn i [0]], [isIn (i % 100) [⟨2, 20⟩, 40, 60, 80]]] }⟩,
  ⟨["sq"],
    { one := [[isIn n [1]]], many := [[isIn (n % 10) [4], notIn (n % 100) [14]]] }⟩,
  ⟨["kok", "mr"], { one := [[isIn n [1]]], two := [[isIn n [2, 3]]], few := [[isIn n [4]]] }⟩,
  ⟨["gu", "hi"],
    { one := [[isIn n [1]]], two := [[isIn n [2, 3]]], few := [[isIn n [4]]]
      many := [[isIn n [6]]] }⟩,
  ⟨["as", "bn"],
    { one := [[isIn n [1, 5, 7, 8, 9, 10]]], two := [[isIn n [2, 3]]], few := [[isIn n [4]]]
      many := [[isIn n [6]]] }⟩,
  ⟨["or"],
    { one := [[isIn n [1, 5, ⟨7, 9⟩]]], two := [[isIn n [2, 3]]], few := [[isIn n [4]]]
      many := [[isIn n [6]]] }⟩,
  ⟨["ca"], { one := [[isIn n [1, 3]]], two := [[isIn n [2]]], few := [[isIn n [4]]] }⟩,
  ⟨["gd"],
    { one := [[isIn n [1, 11]]], two := [[isIn n [2, 12]]], few := [[isIn n [3, 13]]] }⟩]

/-- Regions that write their language in another script than its usual one, and have no rules. -/
def ordinalRegions : List RegionalRules := [
  ⟨"az", ["IQ", "IR", "RU"], .none⟩,
  ⟨"kk", ["AF", "CN", "IR", "MN"], .none⟩,
  ⟨"ms", ["CC"], .none⟩]

end Phrasebook.Plural
