import Mathlib.Algebra.Order.Ring.Nat
import Mathlib.Data.List.TakeWhile
import Phrasebook.Decimal.Fixed

namespace Phrasebook.Decimal

open Text (natText)

/-- A text with a fraction behind a point, or without a point if the fraction is empty. -/
def pointed (whole fraction : List Char) : List Char :=
  if fraction.isEmpty then whole else whole ++ '.' :: fraction

theorem signed_pointed (negative : Bool) (whole fraction : List Char) :
    signed negative (pointed whole fraction) = pointed (signed negative whole) fraction := by
  cases negative <;> cases fraction <;> rfl

theorem pointed_left_inj {whole other fraction : List Char} :
    pointed whole fraction = pointed other fraction ↔ whole = other := by
  cases fraction with
  | nil => rfl
  | cons digit rest => exact List.append_left_inj ('.' :: digit :: rest)

section whole

private theorem natText_mul_pow {n : Nat} (positive : 0 < n) (places : Nat) :
    natText (n * 10 ^ places) = natText n ++ List.replicate places '0' := by
  induction places with
  | zero => simp
  | succ places ih =>
    have split : n * 10 ^ (places + 1) = 10 * (n * 10 ^ places) + 0 := by
      rw [Nat.pow_succ, ← Nat.mul_assoc, Nat.mul_comm, Nat.add_zero]
    calc natText (n * 10 ^ (places + 1))
      _ = natText (n * 10 ^ places) ++ natText 0 := by
        rw [split]
        exact (Nat.toDigits_append_toDigits (by decide)
          (Nat.mul_pos positive (Nat.pow_pos (by decide))) (by decide)).symm
      _ = natText n ++ List.replicate (places + 1) '0' := by
        rw [ih, List.append_assoc, List.replicate_succ']
        rfl

private theorem replicate_append_natText (n places : Nat) :
    List.replicate (places + 1 - (natText (n * 10 ^ places)).length) '0' ++ natText (n * 10 ^ places) =
      natText n ++ List.replicate places '0' := by
  rcases Nat.eq_zero_or_pos n with rfl | positive
  · rw [Nat.zero_mul]
    exact List.replicate_succ'.symm
  · have digits : 0 < (natText n).length := List.length_pos_iff.mpr (Text.natText_ne_nil n)
    have long : places + 1 - (natText (n * 10 ^ places)).length = 0 := by
      rw [natText_mul_pow positive, List.length_append, List.length_replicate]
      omega
    rw [long, natText_mul_pow positive]
    rfl

private theorem pointText_mul_pow (n places : Nat) :
    pointText (n * 10 ^ places) places = pointed (natText n) (List.replicate places '0') := by
  have before : (natText n ++ List.replicate places '0').length - places = (natText n).length := by
    rw [List.length_append, List.length_replicate, Nat.add_sub_cancel]
  simp only [pointText, replicate_append_natText, before, List.take_left, List.drop_left]
  cases places <;> rfl

private theorem divNearestEven_one (n : Nat) : divNearestEven n 1 = n := by
  simp [divNearestEven, Nat.mod_one]

private theorem fixedText_whole (negative : Bool) (significand exponent places : Nat) :
    fixedText places ⟨negative, significand, exponent⟩ =
      pointed (signed negative (natText (significand * 2 ^ exponent)))
        (List.replicate places '0') := by
  have power : powerRatio 2 (exponent : Int) = (2 ^ exponent, 1) :=
    powerRatio_natCast 2 exponent
  have value : significand * Nat.pow 10 places * 2 ^ exponent =
      significand * 2 ^ exponent * 10 ^ places := Nat.mul_right_comm ..
  simp only [fixedText, power, value, divNearestEven_one, pointText_mul_pow, signed_pointed]

end whole

section trimming

variable {whole : List Char}

theorem trimFraction_pointed (least : Nat) (digits : ∀ c ∈ whole, c ≠ '.') (fraction : List Char) :
    trimFraction least (pointed whole fraction) =
      pointed whole (fraction.take least ++ dropTrailingZeros (fraction.drop least)) := by
  have front : ∀ c ∈ whole, (c != '.') = true := fun c member => bne_iff_ne.mpr (digits c member)
  cases fraction with
  | nil =>
    have nothing : whole.dropWhile (· != '.') = [] := List.dropWhile_eq_nil_iff.mpr front
    change trimFraction least whole = pointed whole ([].take least ++ dropTrailingZeros ([].drop least))
    rw [List.take_nil, List.drop_nil, trimFraction, nothing]
    rfl
  | cons digit rest =>
    have before : (whole ++ '.' :: digit :: rest).takeWhile (· != '.') = whole := by
      rw [List.takeWhile_append_of_pos front]
      exact List.append_nil whole
    have behind : (whole ++ '.' :: digit :: rest).dropWhile (· != '.') = '.' :: digit :: rest :=
      List.dropWhile_append_of_pos front
    change trimFraction least (whole ++ '.' :: digit :: rest) = _
    simp only [trimFraction, before, behind]
    cases (digit :: rest).take least ++ dropTrailingZeros ((digit :: rest).drop least) <;> rfl

private theorem dropTrailingZeros_replicate (places : Nat) :
    dropTrailingZeros (List.replicate places '0') = [] := by
  simp [dropTrailingZeros]

theorem trimFraction_zeros {least most : Nat} (digits : ∀ c ∈ whole, c ≠ '.') (order : least ≤ most) :
    trimFraction least (pointed whole (List.replicate most '0')) =
      pointed whole (List.replicate least '0') := by
  rw [trimFraction_pointed least digits, List.drop_replicate, dropTrailingZeros_replicate,
    List.take_replicate, Nat.min_eq_left order, List.append_nil]

theorem ne_point_of_isDigit {c : Char} (digit : c.isDigit = true) : c ≠ '.' := by
  rintro rfl
  exact absurd digit (by decide)

theorem ne_point_of_mem_signed {negative : Bool} (digits : ∀ c ∈ whole, c.isDigit = true) {c : Char}
    (member : c ∈ signed negative whole) : c ≠ '.' := by
  cases negative with
  | false => exact ne_point_of_isDigit (digits c member)
  | true =>
    rcases List.mem_cons.mp member with rfl | member
    · decide
    · exact ne_point_of_isDigit (digits c member)

/-- A whole double has the digits of its value, and as many zeros behind the point as there have to be. -/
theorem trimFraction_fixedText_whole {least most : Nat} (negative : Bool) (significand exponent : Nat)
    (order : least ≤ most) :
    trimFraction least (fixedText most ⟨negative, significand, exponent⟩) =
      pointed (signed negative (natText (significand * 2 ^ exponent)))
        (List.replicate least '0') := by
  have digits : ∀ c ∈ natText (significand * 2 ^ exponent), c.isDigit = true := fun _ =>
    Text.isDigit_of_mem_natText
  rw [fixedText_whole, trimFraction_zeros (fun _ => ne_point_of_mem_signed digits) order]

end trimming

end Phrasebook.Decimal
