/-!
Integers as decimal text. Readers take ASCII digits with an optional plus sign, signed ones also a
minus sign, and refuse a value outside the range they read for.
-/

namespace Phrasebook.Text

/-- The value of a non-empty run of digits. -/
def readDigits? (text : List Char) : Option Nat :=
  if text ≠ [] ∧ text.all Char.isDigit then some (Nat.ofDigitChars 10 text 0) else none

/-- Reads a number below `bound`, with an optional plus sign. -/
def readNat? (bound : Nat) (text : List Char) : Option Nat :=
  (readDigits? (match text with
    | '+' :: digits => digits
    | digits => digits)).filter (· < bound)

/-- Reads a number that fits 64 bits, with an optional plus sign. -/
def readWord? (text : List Char) : Option Nat := readNat? UInt64.size text

/-- Reads an integer, with an optional sign. -/
def readInt? : List Char → Option Int
  | '-' :: digits => (readDigits? digits).map fun n => -(n : Int)
  | '+' :: digits => (readDigits? digits).map Int.ofNat
  | digits => (readDigits? digits).map Int.ofNat

/-- Reads an integer from `least` up to `greatest`. -/
def readIntWithin? (least greatest : Int) (text : List Char) : Option Int :=
  (readInt? text).filter fun n => least ≤ n ∧ n ≤ greatest

/-- Reads a signed integer of 64 bits. -/
def readInt64? (text : List Char) : Option Int64 :=
  (readIntWithin? Int64.minValue.toInt Int64.maxValue.toInt text).map Int64.ofInt

/-- The decimal digits of a natural number. -/
def natText (n : Nat) : List Char := Nat.toDigits 10 n

/-- The decimal text of an integer: its digits, after a minus sign if it is negative. -/
def intText (n : Int) : List Char :=
  if n < 0 then '-' :: natText n.natAbs else natText n.natAbs

theorem natText_ne_nil (n : Nat) : natText n ≠ [] := by
  simp [natText]

theorem isDigit_of_mem_natText {n : Nat} {c : Char} (member : c ∈ natText n) : c.isDigit = true :=
  Nat.isDigit_of_mem_toDigits (by decide) (by decide) member

theorem isDigit_of_natText_eq_cons {n : Nat} {c : Char} {rest : List Char}
    (same : natText n = c :: rest) : c.isDigit = true :=
  isDigit_of_mem_natText (same ▸ List.mem_cons_self)

/-- Reading the digits of a number gives the number back. -/
theorem readDigits?_natText (n : Nat) : readDigits? (natText n) = some n := by
  have digits : (natText n).all Char.isDigit = true :=
    List.all_eq_true.mpr fun _ member => isDigit_of_mem_natText member
  rw [readDigits?, if_pos ⟨natText_ne_nil n, digits⟩, natText,
    Nat.ofDigitChars_toDigits (by decide) (by decide)]

/-- Reading the text of an integer gives the integer back. -/
theorem readInt?_intText (n : Int) : readInt? (intText n) = some n := by
  rw [intText]
  by_cases negative : n < 0
  · have value : -(n.natAbs : Int) = n := by omega
    rw [if_pos negative, readInt?, readDigits?_natText]
    exact congrArg some value
  · have value : (n.natAbs : Int) = n := by omega
    rw [if_neg negative]
    -- a digit in front leaves only the reading without a sign
    unfold readInt?
    split
    · next same => exact absurd (isDigit_of_natText_eq_cons same) (by decide)
    · next same => exact absurd (isDigit_of_natText_eq_cons same) (by decide)
    · rw [readDigits?_natText]
      exact congrArg some value

theorem ofList_intText (n : Int) : String.ofList (intText n) = toString n := by
  change _ = n.repr
  rw [Int.repr_eq_if, intText]
  by_cases negative : n < 0
  · have magnitude : (-n).toNat = n.natAbs := by omega
    rw [if_pos negative, if_neg (Int.not_le.mpr negative), magnitude, Nat.repr_eq_ofList_toDigits,
      String.ofList_cons]
    rfl
  · have magnitude : n.toNat = n.natAbs := by omega
    rw [if_neg negative, if_pos (Int.not_lt.mp negative), magnitude, Nat.repr_eq_ofList_toDigits]
    rfl

end Phrasebook.Text
