import Phrasebook.Text.Integer

/-!
Plural operands: the properties of a written number that plural rules ask about. They come from the
text of a number, so that `1` and `1.0` may have different categories.
-/

namespace Phrasebook.Plural

structure Operands where
  /-- The integer part. -/
  i : Nat
  /-- How many digits stand after the point. -/
  v : Nat
  /-- How many of them are left without zeros at the end. -/
  w : Nat
  /-- The digits after the point. -/
  f : Nat
  /-- The digits after the point without zeros at the end. -/
  t : Nat
  /-- The exponent of a compact number. -/
  c : Nat
  deriving DecidableEq, Repr

namespace Operands

/-- The operands of a whole number are those of its absolute value. -/
def ofInt (n : Int) : Operands := ⟨n.natAbs, 0, 0, 0, 0, 0⟩

/-- Cuts off an exponent, which is zero where no mark stands. -/
def cutExponent? (text : List Char) : Option (List Char × Nat) :=
  match text.dropWhile (· != 'e') with
  | [] => some (text, 0)
  | _ :: exponent => (Text.readWord? exponent).map fun c => (text.takeWhile (· != 'e'), c)

/-- The operands of a number without a sign. -/
def ofMagnitude? (text : List Char) : Option Operands :=
  match text.dropWhile (· != '.') with
  | [] => do
    let (whole, c) ← cutExponent? text
    let i ← Text.readWord? whole
    pure ⟨i, 0, 0, 0, 0, c⟩
  | _ :: right => do
    let (digits, c) ← cutExponent? right
    let i ← Text.readWord? (text.takeWhile (· != '.'))
    let f ← Text.readWord? digits
    let kept := (digits.reverse.dropWhile (· == '0')).reverse
    let t ← if kept.length = 0 ∨ kept.length = digits.length then some f else Text.readWord? kept
    pure ⟨i, digits.length, kept.length, f, t, c⟩

/-- Reads the operands of a number; a minus sign in front has no part in them. -/
def ofText? : List Char → Option Operands
  | [] => none
  | '-' :: magnitude => ofMagnitude? magnitude
  | magnitude => ofMagnitude? magnitude

end Operands

end Phrasebook.Plural
