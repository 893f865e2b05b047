import Mathlib.Data.List.TakeWhile
import Phrasebook.Proofs.Decimal.Bits
import Phrasebook.Text.Space

namespace Phrasebook.Stock

open Decimal (withSign nearestDecimal)
open Text (natText intText)

private theorem map_toLower_natText (n : Nat) : (natText n).map Char.toLower = natText n := by
  refine (List.map_congr_left fun c member => ?_).trans (List.map_id _)
  have low : c.val.toNat ≤ 57 := by
    have digit := Text.isDigit_of_mem_natText member
    simp only [Char.isDigit, Bool.and_eq_true, decide_eq_true_eq] at digit
    exact digit.2
  refine dif_neg fun upper => ?_
  have high : 65 ≤ c.val.toNat := upper.1
  omega

private theorem ofList_natText_ne {n : Nat} {name : String} (letter : 'n' ∈ name.toList) :
    String.ofList (natText n) ≠ name := by
  rintro rfl
  rw [String.toList_ofList] at letter
  exact absurd (Text.isDigit_of_mem_natText letter) (by decide)

/-- Digits are read as the double nearest to them. -/
theorem readMagnitude?_natText (n : Nat) :
    Decimal.readMagnitude? (natText n) = some (nearestDecimal n 0) := by
  have whole : (natText n).takeWhile Char.isDigit = natText n :=
    List.takeWhile_eq_self_iff.mpr fun _ => Text.isDigit_of_mem_natText
  have rest : (natText n).dropWhile Char.isDigit = [] :=
    List.dropWhile_eq_nil_iff.mpr fun _ => Text.isDigit_of_mem_natText
  rw [Decimal.readMagnitude?, map_toLower_natText]
  split
  · next same => exact absurd same (ofList_natText_ne (by decide))
  · next same => exact absurd same (ofList_natText_ne (by decide))
  · next same => exact absurd same (ofList_natText_ne (by decide))
  · simp only [Decimal.readDecimal?, whole, rest, List.append_nil, Text.readDigits?_natText,
      Decimal.readExponent?, List.length_nil]
    rfl

theorem readFloat_intText (z : Int) :
    Decimal.readFloat (intText z) = .ok (withSign (decide (z < 0)) (nearestDecimal z.natAbs 0)) := by
  rw [intText]
  by_cases negative : z < 0
  · rw [if_pos negative, decide_eq_true negative]
    simp only [Decimal.readFloat, readMagnitude?_natText, Option.map_some, Option.elim_some, withSign,
      if_true]
  · rw [if_neg negative, decide_eq_false negative]
    unfold Decimal.readFloat
    split
    · next same => exact absurd same (Text.natText_ne_nil _)
    · next same => exact absurd (Text.isDigit_of_natText_eq_cons same) (by decide)
    · next same => exact absurd (Text.isDigit_of_natText_eq_cons same) (by decide)
    · simp only [readMagnitude?_natText, Option.elim_some, withSign, Bool.false_eq_true, if_false]

theorem isSpace_of_mem_intText {z : Int} {c : Char} (member : c ∈ intText z) :
    Text.isSpace c = false := by
  have digit {c : Char} (member : c ∈ natText z.natAbs) : Text.isSpace c = false :=
    Text.isSpace_of_isDigit (Text.isDigit_of_mem_natText member)
  rw [intText] at member
  by_cases negative : z < 0
  · rw [if_pos negative] at member
    rcases List.mem_cons.mp member with rfl | member
    · decide
    · exact digit member
  · rw [if_neg negative] at member
    exact digit member

theorem intText_ne_nil (z : Int) : intText z ≠ [] := by
  rw [intText]
  by_cases negative : z < 0
  · rw [if_pos negative]
    exact List.cons_ne_nil _ _
  · rw [if_neg negative]
    exact Text.natText_ne_nil _

/-- The integer fits 64 bits. -/
def FitsWord (z : Int) : Prop := -2 ^ 63 ≤ z ∧ z < 2 ^ 63

theorem fitsWord_iff (z : Int) :
    FitsWord z ↔ Int64.minValue.toInt ≤ z ∧ z ≤ Int64.maxValue.toInt := by
  rw [FitsWord, Int64.toInt_minValue, Int64.toInt_maxValue]
  exact and_congr_right fun _ => Int.le_sub_one_iff.symm

theorem readInt64?_of_fits {z : Int} (fits : FitsWord z) :
    Text.readInt64? (intText z) = some (Int64.ofInt z) := by
  rw [Text.readInt64?, Text.readIntWithin?, Text.readInt?_intText, Option.filter_some,
    if_pos (decide_eq_true ((fitsWord_iff z).mp fits))]
  rfl

theorem readInt64?_of_not_fits {z : Int} (exceeds : ¬ FitsWord z) :
    Text.readInt64? (intText z) = none := by
  rw [Text.readInt64?, Text.readIntWithin?, Text.readInt?_intText, Option.filter_some,
    if_neg (by rwa [decide_eq_true_iff, ← fitsWord_iff])]
  rfl

end Phrasebook.Stock
