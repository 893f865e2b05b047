import Mathlib.Algebra.Order.GroupWithZero.Basic
import Phrasebook.Proofs.Decimal.Fraction
import Phrasebook.Proofs.Decimal.Rounding
import Phrasebook.Proofs.Stock.Numeral
import Phrasebook.Stock.Number

namespace Phrasebook.Stock

open Decimal (withSign rounded leadingBit infiniteScale ofMagnitudeBits nearestDecimal pointed signed)
open Text (natText intText)

section texts

/-- The digits of an integer with zeros in a number of places behind the point. -/
def wholeText (z : Int) (places : Nat) : String :=
  toString z ++ if places = 0 then "" else "." ++ String.ofList (List.replicate places '0')

variable {z : Int} {places : Nat}

theorem integerText_eq (z : Int) (places : Nat) :
    integerText z places = pointed (intText z) (List.replicate places '0') := by
  cases places <;> rfl

theorem ofList_integerText (z : Int) (places : Nat) :
    String.ofList (integerText z places) = wholeText z places := by
  rw [wholeText, integerText, ← Text.ofList_intText]
  cases places with
  | zero => exact (String.append_empty ..).symm
  | succ places =>
    rw [if_neg (Nat.succ_ne_zero _), if_neg (Nat.succ_ne_zero _), String.ofList_append,
      String.ofList_cons]
    rfl

theorem wholeText_injective {other : Int} (same : wholeText z places = wholeText other places) :
    z = other := by
  have texts : intText z = intText other := by
    rw [← ofList_integerText, ← ofList_integerText, String.ofList_inj, integerText_eq,
      integerText_eq] at same
    exact Decimal.pointed_left_inj.mp same
  have reread := Text.readInt?_intText z
  rw [texts, Text.readInt?_intText] at reread
  exact (Option.some.inj reread).symm

private theorem signed_natText {n : Nat} (nonzero : z ≠ 0) (positive : 0 < n) :
    signed (decide (z < 0)) (natText n) = intText (z.sign * n) := by
  rcases Int.lt_or_gt_of_ne nonzero with negative | above
  · rw [decide_eq_true negative, Int.sign_eq_neg_one_of_neg negative, Int.neg_one_mul, intText,
      if_pos (by omega), Int.natAbs_neg, Int.natAbs_natCast]
    rfl
  · rw [decide_eq_false (Int.not_lt.mpr above.le), Int.sign_eq_one_of_pos above, Int.one_mul,
      intText, if_neg (by omega), Int.natAbs_natCast]
    rfl

end texts

section options

/-- So many digits after the point are asked for at least: none without the option, and else its value,
an integer or a float. -/
inductive Asks (invocation : Invocation) : Nat → Prop where
  | nothing (absent : invocation.option? "minimumFractionDigits" = none) : Asks invocation 0
  | number {digits : Nat} (within : digits ≤ 20)
      (given : invocation.option? "minimumFractionDigits" = some (.number (Int64.ofNat digits))) :
      Asks invocation digits
  | float {digits : Nat} (within : digits ≤ 20)
      (given : invocation.option? "minimumFractionDigits" = some (.float (Float.ofNat digits))) :
      Asks invocation digits

private theorem digitCount_numberFloat :
    ∀ digits < 21, digitCount (Value.numberFloat (Int64.ofNat digits)) = digits := by
  decide +kernel

private theorem digitCount_ofNat : ∀ digits < 21, digitCount (Float.ofNat digits) = digits := by
  decide +kernel

theorem Asks.digitOption {invocation : Invocation} {digits : Nat} (asks : Asks invocation digits) :
    (digitOption? invocation "minimumFractionDigits").getD 0 = digits := by
  cases asks with
  | nothing absent => rw [digitOption?, absent]; rfl
  | number within given =>
    rw [digitOption?, given]
    exact digitCount_numberFloat digits (Nat.lt_succ_of_le within)
  | float within given =>
    rw [digitOption?, given]
    exact digitCount_ofNat digits (Nat.lt_succ_of_le within)

end options

section numerals

/-- The integer that is written for a text of one beyond 64 bits: the nearest among the doubles. -/
def nearestWhole (z : Int) : Int := z.sign * rounded z.natAbs

/-- The failure of a text that stands for an integer beyond the doubles. -/
def notFinite (z : Int) : Failure :=
  .rangeError ((if z < 0 then "-inf" else "inf") ++ " is not a finite number") []

variable {z : Int} {text : String} {least most : Nat}

private theorem leadingBit_le_natAbs (exceeds : ¬ FitsWord z) : leadingBit ≤ z.natAbs := by
  simp only [FitsWord] at exceeds
  simp only [leadingBit]
  omega

private theorem rounded_pos {n : Nat} (large : leadingBit ≤ n) : 0 < rounded n :=
  Nat.lt_of_lt_of_le (Nat.two_pow_pos _) (Decimal.two_pow_log2_le_rounded large)

private theorem floatText_infinity (negative : Bool) :
    Decimal.floatText (withSign negative (ofMagnitudeBits (infiniteScale * leadingBit))) =
      if negative then "-inf" else "inf" := by
  cases negative <;> decide +kernel

/-- The nearest double is written with all of its digits, unless there is none but infinity. -/
theorem floatText_whole (exceeds : ¬ FitsWord z) (order : least ≤ most) :
    floatText (withSign (decide (z < 0)) (nearestDecimal z.natAbs 0)) least most =
      if rounded z.natAbs < 2 ^ 1024 then .ok (integerText (nearestWhole z) least)
      else .error (notFinite z) := by
  have large := leadingBit_le_natAbs exceeds
  obtain ⟨significand, exponent, value, read⟩ :=
    Decimal.ofFloat?_nearest (decide (z < 0)) large
  rw [Decimal.nearestDecimal_of_large large]
  by_cases finite : rounded z.natAbs < 2 ^ 1024
  · have nonzero : z ≠ 0 := by
      rintro rfl
      exact absurd large (by decide)
    rw [if_pos finite] at read ⊢
    simp only [floatText, read, fractionText,
      Decimal.trimFraction_fixedText_whole _ significand exponent order, value,
      signed_natText nonzero (rounded_pos large), integerText_eq, nearestWhole]
  · rw [if_neg finite] at read ⊢
    rw [Decimal.nearest_of_bound_le large (Nat.not_lt.mp finite)] at read ⊢
    simp only [floatText, read, floatText_infinity, decide_eq_true_eq, notFinite]

private theorem numeralText_of_fits (trimmed : Text.trim text.toList = intText z) (fits : FitsWord z) :
    numeralText text least most = .ok (integerText z least) := by
  simp only [numeralText, trimmed, readInt64?_of_fits fits, Int64.toInt_ofInt_of_le fits.1 fits.2]

private theorem numeralText_of_not_fits (trimmed : Text.trim text.toList = intText z)
    (exceeds : ¬ FitsWord z) (order : least ≤ most) :
    numeralText text least most =
      if rounded z.natAbs < 2 ^ 1024 then .ok (integerText (nearestWhole z) least)
      else .error (notFinite z) := by
  simp only [numeralText, trimmed, readInt64?_of_not_fits exceeds, readFloat_intText,
    floatText_whole exceeds order]

end numerals

section numbers

/-- The value stands for the integer: it is the integer, or its text with any space around it. -/
inductive StandsFor (z : Int) : Value → Prop where
  | number {value : Int64} (same : value.toInt = z) : StandsFor z (.number value)
  | text {before after : String} (spaceBefore : ∀ c ∈ before.toList, Text.isSpace c = true)
      (spaceAfter : ∀ c ∈ after.toList, Text.isSpace c = true) :
      StandsFor z (.text (before ++ toString z ++ after))

variable {invocation : Invocation} {rest : List Value} {z : Int} {least : Nat}

private theorem fitsWord_toInt (value : Int64) : FitsWord value.toInt :=
  ⟨value.le_toInt, value.toInt_lt⟩

theorem trim_spaced {before after : String} (spaceBefore : ∀ c ∈ before.toList, Text.isSpace c = true)
    (spaceAfter : ∀ c ∈ after.toList, Text.isSpace c = true) :
    Text.trim (before ++ toString z ++ after).toList = intText z := by
  rw [← Text.ofList_intText, String.toList_append, String.toList_append, String.toList_ofList]
  exact Text.trim_append spaceBefore spaceAfter (fun _ => isSpace_of_mem_intText) (intText_ne_nil z)

private theorem number_of_number {value : Int64} (given : invocation.arguments = .number value :: rest)
    (asks : Asks invocation least) :
    number invocation = .ok (.text (wholeText value.toInt least)) := by
  rw [← ofList_integerText, ← asks.digitOption, number, given]
  rfl

theorem number_of_text {text : String} (given : invocation.arguments = .text text :: rest)
    (asks : Asks invocation least) : ∃ most, least ≤ most ∧
      number invocation = (numeralText text least most).map fun digits => .text (String.ofList digits) := by
  refine ⟨_, Nat.le_max_right
    ((digitOption? invocation "maximumFractionDigits").getD defaultFractionDigits) least, ?_⟩
  rw [← asks.digitOption, number, given]
  exact bind_pure_comp (fun digits => Value.text (String.ofList digits)) (numeralText text _ _)

private theorem number_of_fits {value : Value} (given : invocation.arguments = value :: rest)
    (standsFor : StandsFor z value) (asks : Asks invocation least) (fits : FitsWord z) :
    number invocation = .ok (.text (wholeText z least)) := by
  cases standsFor with
  | number same => rw [number_of_number given asks, same]
  | text spaceBefore spaceAfter =>
    obtain ⟨most, -, run⟩ := number_of_text given asks
    rw [run, numeralText_of_fits (trim_spaced spaceBefore spaceAfter) fits, ← ofList_integerText]
    rfl

private theorem number_of_not_fits {value : Value} (given : invocation.arguments = value :: rest)
    (standsFor : StandsFor z value) (asks : Asks invocation least) (exceeds : ¬ FitsWord z) :
    number invocation =
      if rounded z.natAbs < 2 ^ 1024 then .ok (.text (wholeText (nearestWhole z) least))
      else .error (notFinite z) := by
  cases standsFor with
  | number same => exact absurd (same ▸ fitsWord_toInt _) exceeds
  | text spaceBefore spaceAfter =>
    obtain ⟨most, order, run⟩ := number_of_text given asks
    rw [run, numeralText_of_not_fits (trim_spaced spaceBefore spaceAfter) exceeds order,
      ← ofList_integerText]
    split <;> rfl

theorem nearestWhole_eq_self_iff (z : Int) :
    nearestWhole z = z ↔ rounded z.natAbs = z.natAbs := by
  rcases eq_or_ne z 0 with rfl | some
  · exact iff_of_true rfl rfl
  · have sign : z.sign ≠ 0 := mt Int.sign_eq_zero_iff_zero.mp some
    calc nearestWhole z = z
      _ ↔ z.sign * rounded z.natAbs = z.sign * z.natAbs := by rw [Int.sign_mul_natAbs, nearestWhole]
      _ ↔ rounded z.natAbs = z.natAbs := (mul_right_inj' sign).trans Int.natCast_inj

/-- An integer keeps every digit, as a number or as text, if it fits 64 bits; the zeros that are asked for
stand behind the point, and the digits that are allowed at most do not matter. The text of an integer
beyond is written as the nearest double, which loses nothing only where 53 binary digits with zeros behind
them are enough for it. -/
theorem number_whole {value : Value} (given : invocation.arguments = value :: rest)
    (standsFor : StandsFor z value) (asks : Asks invocation least) :
    (FitsWord z → number invocation = .ok (.text (wholeText z least))) ∧
    (¬ FitsWord z → number invocation =
      if rounded z.natAbs < 2 ^ 1024 then .ok (.text (wholeText (nearestWhole z) least))
      else .error (notFinite z)) ∧
    (number invocation = .ok (.text (wholeText z least)) ↔ FitsWord z ∨
      z.natAbs < 2 ^ 1024 ∧
        ∃ significand exponent, significand < 2 ^ 53 ∧ z.natAbs = significand * 2 ^ exponent) := by
  refine ⟨number_of_fits given standsFor asks, number_of_not_fits given standsFor asks, ?_⟩
  by_cases fits : FitsWord z
  · exact iff_of_true (number_of_fits given standsFor asks fits) (.inl fits)
  · rw [number_of_not_fits given standsFor asks fits, or_iff_right fits, ← Decimal.spacing_dvd_iff,
      ← Decimal.rounded_eq_self_iff]
    constructor
    · intro same
      split at same
      · next finite =>
        have kept : rounded z.natAbs = z.natAbs :=
          (nearestWhole_eq_self_iff z).mp (wholeText_injective (Value.text.inj (Except.ok.inj same)))
        exact ⟨kept ▸ finite, kept⟩
      · cases same
    · rintro ⟨finite, same⟩
      rw [if_pos (same.symm ▸ finite), (nearestWhole_eq_self_iff z).mpr same]

/-- A text with space around it, more digits asked for than allowed, and a power of two beyond 64 bits. -/
theorem number_whole_spaced :
    let options : List (String × Value) :=
      [("maximumFractionDigits", .number 0), ("minimumFractionDigits", .number 2)]
    let within : Invocation := ⟨[], options, [.text " -9007199254740993\n"]⟩
    let beyond : Invocation := ⟨[], options, [.text "18446744073709551616"]⟩
    Asks within 2 ∧ StandsFor (-9007199254740993) (.text " -9007199254740993\n") ∧
    FitsWord (-9007199254740993) ∧ number within = .ok (.text "-9007199254740993.00") ∧
    Asks beyond 2 ∧ StandsFor 18446744073709551616 (.text "18446744073709551616") ∧
    ¬ FitsWord 18446744073709551616 ∧ number beyond = .ok (.text "18446744073709551616.00") := by
  intro options within beyond
  have asksWithin : Asks within 2 := .number (by decide) rfl
  have asksBeyond : Asks beyond 2 := .number (by decide) rfl
  have spaced : StandsFor (-9007199254740993) (.text " -9007199254740993\n") :=
    @StandsFor.text _ " " "\n" (by simp [Text.isSpace, Text.spaceCodes])
      (by simp [Text.isSpace, Text.spaceCodes])
  have bare : StandsFor 18446744073709551616 (.text "18446744073709551616") :=
    @StandsFor.text _ "" "" (by simp) (by simp)
  have fits : FitsWord (-9007199254740993) := by
    rw [FitsWord]
    decide
  have exceeds : ¬ FitsWord 18446744073709551616 := by
    rw [FitsWord]
    decide
  have small : (18446744073709551616 : Int).natAbs < 2 ^ 1024 :=
    show 2 ^ 64 < 2 ^ 1024 from pow_lt_pow_right₀ one_lt_two (by decide)
  have withinText : wholeText (-9007199254740993) 2 = "-9007199254740993.00" := by decide
  have beyondText : wholeText 18446744073709551616 2 = "18446744073709551616.00" := by decide
  refine ⟨asksWithin, spaced, fits, ?_, asksBeyond, bare, exceeds, ?_⟩
  · rw [(number_whole rfl spaced asksWithin).1 fits, withinText]
  · rw [(number_whole rfl bare asksBeyond).2.2.mpr (.inr ⟨small, 1, 64, by decide, by decide⟩),
      beyondText]

/-- The integer after the next power of two beyond 64 bits is written as that power. -/
theorem number_whole_beyond :
    StandsFor 9223372036854775809 (.text "9223372036854775809") ∧
    Asks ⟨[], [], [.text "9223372036854775809"]⟩ 0 ∧
    number ⟨[], [], [.text "9223372036854775809"]⟩ = .ok (.text "9223372036854775808") ∧
    number ⟨[], [], [.text "9223372036854775809"]⟩ ≠
      .ok (.text (wholeText 9223372036854775809 0)) := by
  have written : number ⟨[], [], [.text "9223372036854775809"]⟩ =
      .ok (.text "9223372036854775808") := by rfl
  refine ⟨@StandsFor.text _ "" "" (by simp) (by simp), .nothing rfl, written, ?_⟩
  rw [written]
  intro same
  have texts : "9223372036854775808" = wholeText 9223372036854775809 0 :=
    Value.text.inj (Except.ok.inj same)
  exact absurd texts (by decide)

end numbers

end Phrasebook.Stock
