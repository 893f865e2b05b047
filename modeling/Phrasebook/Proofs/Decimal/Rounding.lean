import Mathlib.Tactic.Ring
import Phrasebook.Proofs.Decimal.Bits

namespace Phrasebook.Decimal

section division

private theorem div_le_divNearestEven (num den : Nat) : num / den ≤ divNearestEven num den := by
  simp only [divNearestEven]
  split
  · exact Nat.le_refl _
  · split <;> exact Nat.le_add_right ..

private theorem divNearestEven_le (num den : Nat) : divNearestEven num den ≤ num / den + 1 := by
  simp only [divNearestEven]
  split
  · exact Nat.le_succ _
  · split
    · exact Nat.le_refl _
    · exact Nat.add_le_add_left (Nat.le_of_lt_succ (Nat.mod_lt _ Nat.zero_lt_two)) _

private theorem divNearestEven_of_dvd {num den : Nat} (positive : 0 < den) (divides : den ∣ num) :
    divNearestEven num den = num / den := by
  simp only [divNearestEven, Nat.mod_eq_zero_of_dvd divides]
  exact if_pos positive

end division

section spacing

/-- The distance of the doubles around a number of at least 53 binary digits. -/
def spacing (n : Nat) : Nat := 2 ^ (n.log2 - 52)

/-- The multiple of the spacing that is nearest to a number, of two the even one. -/
def rounded (n : Nat) : Nat := divNearestEven n (spacing n) * spacing n

theorem spacing_pos (n : Nat) : 0 < spacing n := Nat.two_pow_pos _

theorem rounded_eq_self_iff (n : Nat) : rounded n = n ↔ spacing n ∣ n := by
  constructor
  · exact fun same => ⟨_, same.symm.trans (Nat.mul_comm ..)⟩
  · intro divides
    rw [rounded, divNearestEven_of_dvd (spacing_pos n) divides, Nat.div_mul_cancel divides]

/-- The multiples of the spacing are the numbers of 53 binary digits with zeros behind them. -/
theorem spacing_dvd_iff (n : Nat) :
    spacing n ∣ n ↔ ∃ significand exponent, significand < 2 ^ 53 ∧ n = significand * 2 ^ exponent := by
  constructor
  · rintro ⟨significand, split⟩
    refine ⟨significand, n.log2 - 52, ?_, split.trans (Nat.mul_comm ..)⟩
    have less : spacing n * significand < spacing n * 2 ^ 53 := by
      rw [← split, spacing, ← pow_add]
      exact Nat.lt_of_lt_of_le Nat.lt_log2_self (Nat.pow_le_pow_right Nat.zero_lt_two (by omega))
    exact Nat.lt_of_mul_lt_mul_left less
  · rintro ⟨significand, exponent, small, rfl⟩
    rcases Nat.eq_zero_or_pos significand with rfl | positive
    · simp
    · refine Dvd.dvd.mul_left (Nat.pow_dvd_pow 2 ?_) _
      have below : significand * 2 ^ exponent < 2 ^ (53 + exponent) := by
        rw [pow_add]
        exact Nat.mul_lt_mul_of_pos_right small (Nat.two_pow_pos _)
      have digits := (Nat.log2_lt (Nat.mul_pos positive (Nat.two_pow_pos _)).ne').mpr below
      omega

private theorem leadingBit_eq : leadingBit = 2 ^ 52 := rfl

variable {n : Nat}

theorem ne_zero_of_large (large : leadingBit ≤ n) : n ≠ 0 :=
  (Nat.lt_of_lt_of_le (Nat.two_pow_pos 52) large).ne'

theorem leadingBit_mul_spacing (large : leadingBit ≤ n) : leadingBit * spacing n = 2 ^ n.log2 := by
  rw [leadingBit_eq, spacing, ← pow_add,
    Nat.add_sub_cancel' ((Nat.le_log2 (ne_zero_of_large large)).mpr large)]

theorem leadingBit_le_divNearestEven (large : leadingBit ≤ n) :
    leadingBit ≤ divNearestEven n (spacing n) := by
  refine Nat.le_trans ((Nat.le_div_iff_mul_le (spacing_pos n)).mpr ?_) (div_le_divNearestEven ..)
  rw [leadingBit_mul_spacing large]
  exact Nat.log2_self_le (ne_zero_of_large large)

private theorem divNearestEven_le_leadingBit (large : leadingBit ≤ n) :
    divNearestEven n (spacing n) ≤ 2 * leadingBit := by
  refine Nat.le_trans (divNearestEven_le ..) ((Nat.div_lt_iff_lt_mul (spacing_pos n)).mpr ?_)
  rw [Nat.mul_assoc, leadingBit_mul_spacing large, Nat.mul_comm, ← pow_succ]
  exact Nat.lt_log2_self

theorem two_pow_log2_le_rounded (large : leadingBit ≤ n) : 2 ^ n.log2 ≤ rounded n := by
  rw [← leadingBit_mul_spacing large]
  exact Nat.mul_le_mul_right _ (leadingBit_le_divNearestEven large)

end spacing

section doubles

variable {n significand exponent : Nat}

theorem lt_bound_iff (least : leadingBit ≤ significand) (most : significand < 2 * leadingBit) :
    significand * 2 ^ exponent < 2 ^ 1024 ↔ exponent < 972 := by
  constructor
  · refine fun fits => Nat.lt_of_not_le fun high => Nat.not_le.mpr fits ?_
    calc 2 ^ 1024
      _ ≤ 2 ^ (52 + exponent) := pow_le_pow_right₀ one_le_two (Nat.add_le_add_left high 52)
      _ = 2 ^ 52 * 2 ^ exponent := pow_add ..
      _ ≤ significand * 2 ^ exponent := Nat.mul_le_mul_right _ least
  · intro low
    calc significand * 2 ^ exponent
      _ < 2 ^ 53 * 2 ^ exponent := Nat.mul_lt_mul_of_pos_right most (Nat.two_pow_pos _)
      _ = 2 ^ (53 + exponent) := (pow_add ..).symm
      _ ≤ 2 ^ 1024 := pow_le_pow_right₀ one_le_two (by omega)

private theorem ofFloat?_of_significand (negative : Bool) (least : leadingBit ≤ significand)
    (most : significand < 2 * leadingBit) :
    Binary.ofFloat? (withSign negative
        (ofMagnitudeBits ((exponent + 1074) * leadingBit + significand))) =
      if significand * 2 ^ exponent < 2 ^ 1024 then some ⟨negative, significand, exponent⟩ else none := by
  obtain ⟨fraction, rfl⟩ := Nat.exists_eq_add_of_le least
  have small : fraction < leadingBit := by omega
  have bits : (exponent + 1074) * leadingBit + (leadingBit + fraction) =
      (exponent + 1075) * leadingBit + fraction := by ring
  rw [bits, ofFloat?_withSign negative small]
  by_cases low : exponent < 972
  · rw [if_pos ((lt_bound_iff least most).mpr low), if_neg (by simp only [infiniteScale]; omega),
      if_neg (Nat.succ_ne_zero _)]
    simp only [Option.some.injEq, Binary.mk.injEq, true_and, leastExponent]
    omega
  · rw [if_neg (mt (lt_bound_iff least most).mp low), if_pos (by simp only [infiniteScale]; omega)]

private theorem nearest_eq (large : leadingBit ≤ n) : nearest n 1 =
    ofMagnitudeBits ((n.log2 - 52 + 1074) * leadingBit + divNearestEven n (spacing n)) := by
  have positive : n ≠ 0 := ne_zero_of_large large
  have digits : 52 ≤ n.log2 := (Nat.le_log2 positive).mpr large
  have guess : (n.log2 : Int) - (Nat.log2 1 : Nat) - 52 = ((n.log2 - 52 : Nat) : Int) := by
    rw [show Nat.log2 1 = 0 from rfl]
    omega
  have power : powerRatio 2 ((n.log2 - 52 : Nat) : Int) = (spacing n, 1) :=
    powerRatio_natCast 2 _
  have full : ¬ n < leadingBit * spacing n := by
    rw [leadingBit_mul_spacing large]
    exact Nat.not_lt.mpr (Nat.log2_self_le positive)
  have exponent : max ((n.log2 - 52 : Nat) : Int) leastExponent = ((n.log2 - 52 : Nat) : Int) :=
    max_eq_left (Int.le_trans (by decide) (Int.natCast_nonneg _))
  have scale : (((n.log2 - 52 : Nat) : Int) - leastExponent).toNat = n.log2 - 52 + 1074 := by
    simp only [leastExponent]
    omega
  simp only [nearest, guess, power, Nat.mul_one, Nat.one_mul, if_neg full, exponent, scale]

/-- Where rounding carries over into the next power of two, the significand is halved. -/
theorem exists_nearest_eq (large : leadingBit ≤ n) :
    ∃ significand exponent : Nat, leadingBit ≤ significand ∧ significand < 2 * leadingBit ∧
      significand * 2 ^ exponent = rounded n ∧
      nearest n 1 = ofMagnitudeBits ((exponent + 1074) * leadingBit + significand) := by
  have least := leadingBit_le_divNearestEven large
  -- the carried bit moves into the scale, since both are written side by side
  rcases (divNearestEven_le_leadingBit large).lt_or_eq with most | carried
  · exact ⟨_, _, least, most, rfl, nearest_eq large⟩
  · have value : leadingBit * 2 ^ (n.log2 - 52 + 1) = rounded n := by
      rw [rounded, carried, spacing]
      ring
    have bits : (n.log2 - 52 + 1074) * leadingBit + 2 * leadingBit =
        (n.log2 - 52 + 1 + 1074) * leadingBit + leadingBit := by ring
    refine ⟨_, _, le_rfl, ?_, value, ?_⟩
    · rw [Nat.two_mul]
      exact Nat.lt_add_of_pos_right (Nat.two_pow_pos 52)
    · rw [nearest_eq large, carried, bits]

/-- The exact value of the double nearest to a number of at least 53 binary digits: the rounded number,
or nothing if that is beyond the bound. -/
theorem ofFloat?_nearest (negative : Bool) (large : leadingBit ≤ n) :
    ∃ significand exponent : Nat, significand * 2 ^ exponent = rounded n ∧
      Binary.ofFloat? (withSign negative (nearest n 1)) =
        if rounded n < 2 ^ 1024 then some ⟨negative, significand, exponent⟩ else none := by
  obtain ⟨significand, exponent, least, most, value, double⟩ := exists_nearest_eq large
  refine ⟨significand, exponent, value, ?_⟩
  rw [double, ofFloat?_of_significand negative least most, value]

private theorem ofMagnitudeBits_of_le {bits : Nat} (beyond : infiniteScale * leadingBit ≤ bits) :
    ofMagnitudeBits bits = ofMagnitudeBits (infiniteScale * leadingBit) := by
  rw [ofMagnitudeBits, Nat.min_eq_right beyond, ofMagnitudeBits, Nat.min_self]

theorem nearest_of_bound_le (large : leadingBit ≤ n) (beyond : 2 ^ 1024 ≤ rounded n) :
    nearest n 1 = ofMagnitudeBits (infiniteScale * leadingBit) := by
  obtain ⟨significand, exponent, least, most, value, double⟩ := exists_nearest_eq large
  have high : 972 ≤ exponent := by
    rw [← value] at beyond
    exact Nat.le_of_not_lt (mt (lt_bound_iff least most).mpr (Nat.not_lt.mpr beyond))
  rw [double]
  apply ofMagnitudeBits_of_le
  calc infiniteScale * leadingBit
    _ = (972 + 1074) * leadingBit + leadingBit := rfl
    _ ≤ (exponent + 1074) * leadingBit + significand :=
      Nat.add_le_add (Nat.mul_le_mul_right _ (Nat.add_le_add_right high _)) least

private theorem le_log2_of_lt_length {digits : Nat} (positive : 0 < digits)
    (long : digits < (Text.natText n).length) : 3 * digits ≤ n.log2 := by
  have much : 10 ^ digits ≤ n := by
    refine Nat.le_of_not_lt fun less => Nat.not_le.mpr long ?_
    exact (Nat.length_toDigits_le_iff (by decide) positive).mpr less
  refine (Nat.le_log2 (Nat.lt_of_lt_of_le (Nat.pow_pos (by decide)) much).ne').mpr ?_
  calc 2 ^ (3 * digits)
    _ = (2 ^ 3) ^ digits := pow_mul ..
    _ ≤ 10 ^ digits := pow_le_pow_left₀ (by decide) (by decide) _
    _ ≤ n := much

/-- Decimals that are infinite for their length alone are beyond the bound. -/
theorem bound_le_rounded_of_length (large : leadingBit ≤ n) (long : 400 < (Text.natText n).length) :
    2 ^ 1024 ≤ rounded n := by
  have digits : 3 * 400 ≤ n.log2 := le_log2_of_lt_length (by decide) long
  calc 2 ^ 1024
    _ ≤ 2 ^ n.log2 := pow_le_pow_right₀ one_le_two (by omega)
    _ ≤ rounded n := two_pow_log2_le_rounded large

theorem nearestDecimal_of_large (large : leadingBit ≤ n) : nearestDecimal n 0 = nearest n 1 := by
  have positive : n ≠ 0 := ne_zero_of_large large
  have near : ¬ (n = 0 ∨ ((Text.natText n).length : Int) + 0 < -400) := by omega
  simp only [nearestDecimal, if_neg near]
  split
  · next long =>
    -- not compared with the doubles at all, but the comparison would end in infinity as well
    exact (nearest_of_bound_le large (bound_le_rounded_of_length large (by omega))).symm
  · exact congrArg (nearest · 1) (Nat.mul_one n)

end doubles

end Phrasebook.Decimal
