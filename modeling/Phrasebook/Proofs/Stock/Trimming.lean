import Mathlib.Algebra.Order.Ring.Rat
import Mathlib.Data.List.DropRight
import Mathlib.Tactic.FieldSimp
import Mathlib.Tactic.Ring
import Phrasebook.Proofs.Stock.Exactness

namespace Phrasebook.Decimal

/-- A decimal text taken apart: a sign, the digits before the point, of which there is one at least, and
those behind it. -/
structure Numeral where
  negative : Bool
  whole : List Char
  fraction : List Char
  written : whole ≠ []
  digits : ∀ c ∈ whole ++ fraction, c.isDigit = true

namespace Numeral

/-- What stands before the point. -/
def integral (numeral : Numeral) : List Char := signed numeral.negative numeral.whole

/-- The text; without digits behind the point it has no point. -/
def text (numeral : Numeral) : List Char := pointed numeral.integral numeral.fraction

/-- The exact value. -/
def value (numeral : Numeral) : ℚ :=
  (if numeral.negative then -1 else 1) *
    Nat.ofDigitChars 10 (numeral.whole ++ numeral.fraction) 0 / 10 ^ numeral.fraction.length

variable {numeral : Numeral}

theorem ne_point_of_mem_integral {c : Char} (member : c ∈ numeral.integral) : c ≠ '.' :=
  ne_point_of_mem_signed (fun c member => numeral.digits c (List.mem_append_left _ member)) member

private theorem getLast?_text_ne_point (numeral : Numeral) : numeral.text.getLast? ≠ some '.' := by
  intro last
  cases fraction : numeral.fraction with
  | nil =>
    rw [text, fraction] at last
    exact ne_point_of_mem_integral (List.mem_of_getLast? last) rfl
  | cons digit rest =>
    have behind : (numeral.integral ++ '.' :: digit :: rest).getLast? = (digit :: rest).getLast? := by
      rw [List.getLast?_append_cons, List.getLast?_cons_cons]
    have shape : numeral.text = numeral.integral ++ '.' :: digit :: rest := by
      rw [text, fraction]
      rfl
    rw [shape, behind] at last
    have member : '.' ∈ numeral.fraction := fraction ▸ List.mem_of_getLast? last
    exact ne_point_of_isDigit (numeral.digits '.' (List.mem_append_right _ member)) rfl

end Numeral

section printing

/-- Padded with zeros in front, a number has a digit before the point, and as many behind it as there are
to be. -/
theorem exists_pointText (digits places : Nat) :
    ∃ whole fraction, pointText digits places = pointed whole fraction ∧ whole ≠ [] ∧
      (∀ c ∈ whole ++ fraction, c.isDigit = true) ∧ fraction.length = places := by
  let written := Text.natText digits
  let padded := List.replicate (places + 1 - written.length) '0' ++ written
  have long : places < padded.length := by
    rw [List.length_append, List.length_replicate]
    omega
  have each : ∀ c ∈ padded, c.isDigit = true := by
    intro c member
    rcases List.mem_append.mp member with zero | digit
    · rw [List.eq_of_mem_replicate zero]
      decide
    · exact Text.isDigit_of_mem_natText digit
  have behind : (padded.drop (padded.length - places)).length = places := by
    rw [List.length_drop]
    omega
  refine ⟨padded.take (padded.length - places), padded.drop (padded.length - places), ?_, ?_, ?_, behind⟩
  · have nothing : (padded.drop (padded.length - places)).isEmpty = true ↔ places = 0 := by
      rw [List.isEmpty_iff_length_eq_zero, behind]
    exact (if_congr nothing rfl rfl).symm
  · rw [ne_eq, List.take_eq_nil_iff, not_or]
    exact ⟨by omega, fun nothing => by simp [nothing] at long⟩
  · rw [List.take_append_drop]
    exact each

private theorem exists_fixedText (places : Nat) (value : Binary) :
    ∃ printed : Numeral, printed.fraction.length = places ∧ fixedText places value = printed.text := by
  obtain ⟨whole, fraction, text, written, digits, length⟩ := exists_pointText
    (divNearestEven (value.significand * Nat.pow 10 places * (powerRatio 2 value.exponent).1)
      (powerRatio 2 value.exponent).2) places
  refine ⟨⟨value.negative, whole, fraction, written, digits⟩, length, ?_⟩
  rw [fixedText, text, signed_pointed]
  rfl

end printing

section trimming

/-- A beginning of a fraction is enough: it has `least` digits or more, and behind it there are only
zeros. -/
structure Suffices (least : Nat) (fraction kept : List Char) : Prop where
  enough : least ≤ kept.length
  zeros : ∃ places, fraction = kept ++ List.replicate places '0'

/-- The shortest beginning that is enough. -/
structure Shortest (least : Nat) (fraction kept : List Char) : Prop extends
    Suffices least fraction kept where
  shortest : ∀ other, Suffices least fraction other → kept <+: other

variable {least : Nat} {fraction kept : List Char}

private theorem isPrefix_dropTrailingZeros (digits : List Char) : dropTrailingZeros digits <+: digits :=
  List.rdropWhile_prefix (· == '0') digits

private theorem exists_dropTrailingZeros (digits : List Char) :
    ∃ places, digits = dropTrailingZeros digits ++ List.replicate places '0' := by
  have split : dropTrailingZeros digits ++ digits.rtakeWhile (· == '0') = digits :=
    List.rdropWhile_append_rtakeWhile
  have zeros : ∀ c ∈ digits.rtakeWhile (· == '0'), c = '0' := fun c member =>
    beq_iff_eq.mp (List.mem_rtakeWhile_imp (p := (· == '0')) member)
  rw [List.eq_replicate_of_mem zeros] at split
  exact ⟨_, split.symm⟩

private theorem dropTrailingZeros_append_replicate (digits : List Char) (places : Nat) :
    dropTrailingZeros (digits ++ List.replicate places '0') = dropTrailingZeros digits := by
  rw [dropTrailingZeros, List.reverse_append, List.reverse_replicate, List.dropWhile_append_of_pos]
  · rfl
  · intro c member
    rw [List.eq_of_mem_replicate member]
    decide

private theorem shortest_trimmed (enough : least ≤ fraction.length) :
    Shortest least fraction (fraction.take least ++ dropTrailingZeros (fraction.drop least)) where
  enough := by
    rw [List.length_append, List.length_take_of_le enough]
    exact Nat.le_add_right ..
  zeros := by
    obtain ⟨places, split⟩ := exists_dropTrailingZeros (fraction.drop least)
    refine ⟨places, ?_⟩
    rw [List.append_assoc, ← split, List.take_append_drop]
  shortest := by
    rintro other ⟨some, places, rfl⟩
    rw [List.take_append_of_le_length some, List.drop_append_of_le_length some,
      dropTrailingZeros_append_replicate]
    calc other.take least ++ dropTrailingZeros (other.drop least)
      _ <+: other.take least ++ other.drop least :=
        (List.prefix_append_right_inj _).mpr (isPrefix_dropTrailingZeros _)
      _ = other := List.take_append_drop ..

private theorem Suffices.length_le (holds : Suffices least fraction kept) : kept.length ≤ fraction.length := by
  obtain ⟨places, rfl⟩ := holds.zeros
  rw [List.length_append]
  exact Nat.le_add_right ..

/-- Dropping zeros at the end leaves the same sign, the same digits before the point and the same value. -/
theorem exists_trimmed (printed : Numeral) (enough : least ≤ printed.fraction.length) :
    ∃ trimmed : Numeral, trimFraction least printed.text = trimmed.text ∧
      trimmed.negative = printed.negative ∧ trimmed.whole = printed.whole ∧
      Shortest least printed.fraction trimmed.fraction ∧ trimmed.value = printed.value := by
  let kept := printed.fraction.take least ++ dropTrailingZeros (printed.fraction.drop least)
  have shortest : Shortest least printed.fraction kept := shortest_trimmed enough
  obtain ⟨places, split⟩ := shortest.zeros
  have digits : ∀ c ∈ printed.whole ++ kept, c.isDigit = true := by
    intro c member
    refine printed.digits c ?_
    rw [split, ← List.append_assoc]
    exact List.mem_append_left _ member
  refine ⟨⟨printed.negative, printed.whole, kept, printed.written, digits⟩, ?_, rfl, rfl, shortest, ?_⟩
  · exact trimFraction_pointed least (fun _ => Numeral.ne_point_of_mem_integral) printed.fraction
  · have scaled : Nat.ofDigitChars 10 (printed.whole ++ printed.fraction) 0 =
        10 ^ places * Nat.ofDigitChars 10 (printed.whole ++ kept) 0 := by
      rw [split, ← List.append_assoc, Nat.ofDigitChars_append, Nat.ofDigitChars_replicate_zero]
    have length : printed.fraction.length = kept.length + places := by
      rw [split, List.length_append, List.length_replicate]
    simp only [Numeral.value, scaled, length]
    push_cast
    field_simp
    ring

end trimming

end Phrasebook.Decimal

namespace Phrasebook.Stock

open Decimal (Binary Numeral Shortest fixedText trimFraction pointed)
open Text (intText)

/-- A double is printed with a sign, digits before the point and as many behind it as there are to be at
most. Whatever digits those are, zeros at the end are dropped down to the digits that there have to be
at least: of the fraction stays the shortest beginning that is enough, and no point without one. The
sign, the digits before the point and the exact value stay. Of zeros alone only those that there have
to be are left, as behind an integer. -/
theorem fractionText_shortest {least most : Nat} (order : least ≤ most) :
    (∀ value : Binary, ∃ printed : Numeral, printed.fraction.length = most ∧
      fixedText most value = printed.text ∧
      fractionText value least most = trimFraction least printed.text) ∧
    ∀ printed : Numeral, printed.fraction.length = most → ∃ trimmed : Numeral,
      trimFraction least printed.text = trimmed.text ∧
      trimmed.negative = printed.negative ∧ trimmed.whole = printed.whole ∧
      Shortest least printed.fraction trimmed.fraction ∧ trimmed.value = printed.value ∧
      least ≤ trimmed.fraction.length ∧ trimmed.fraction.length ≤ most ∧
      trimmed.text.getLast? ≠ some '.' ∧
      ((∀ c ∈ printed.fraction, c = '0') →
        trimmed.text = pointed printed.integral (List.replicate least '0') ∧
        ∀ z, printed.integral = intText z → trimmed.text = integerText z least) := by
  refine ⟨fun value => ?_, fun printed length => ?_⟩
  · obtain ⟨printed, length, text⟩ := Decimal.exists_fixedText most value
    exact ⟨printed, length, text, congrArg (trimFraction least) text⟩
  · obtain ⟨trimmed, text, sign, whole, shortest, value⟩ :=
      Decimal.exists_trimmed printed (length ▸ order)
    refine ⟨trimmed, text, sign, whole, shortest, value, shortest.enough,
      length ▸ shortest.toSuffices.length_le, trimmed.getLast?_text_ne_point, fun zeros => ?_⟩
    have padded : trimmed.text = pointed printed.integral (List.replicate least '0') := by
      rw [← text, Numeral.text, List.eq_replicate_of_mem zeros, length]
      exact Decimal.trimFraction_zeros (fun _ => Numeral.ne_point_of_mem_integral) order
    refine ⟨padded, fun z same => ?_⟩
    rw [padded, same, integerText_eq]

/-- Five quarters below zero with one digit at least and three at most, and less than half of the last
digit below zero, which leaves zeros and the sign. -/
theorem fractionText_shortest_quarters :
    1 ≤ 3 ∧ fixedText 3 ⟨true, 5, -2⟩ = "-1.250".toList ∧
    fractionText ⟨true, 5, -2⟩ 1 3 = "-1.25".toList ∧
    fractionText ⟨true, 1, -12⟩ 1 3 = "-0.0".toList ∧
    ∃ printed trimmed : Numeral, fixedText 3 ⟨true, 5, -2⟩ = printed.text ∧
      fractionText ⟨true, 5, -2⟩ 1 3 = trimmed.text ∧
      Shortest 1 printed.fraction trimmed.fraction ∧ trimmed.value = printed.value := by
  have order : 1 ≤ 3 := by decide
  obtain ⟨printing, trimming⟩ := fractionText_shortest order
  obtain ⟨printed, length, text, left⟩ := printing ⟨true, 5, -2⟩
  obtain ⟨trimmed, same, -, -, shortest, value, -⟩ := trimming printed length
  exact ⟨order, by decide, by decide, by decide, printed, trimmed, text, left.trans same, shortest, value⟩

end Phrasebook.Stock
