import Mathlib
import Phrasebook.Decimal.Reading

/-!
Doubles by their bits. The double of a magnitude has the bits of the magnitude, and under a minus sign
the sign bit before them, so that its exact value can be read off. What is known of packing doubles
comes with the whole library only.
-/

namespace Phrasebook.Decimal

open Float.Model (UnpackedFloat)
open Float.Model.Format (binary64)
open Float.Model.UnpackedFloat (Sign packComponents)

section bits

/-- Sign, scale and fraction of a double, one after the other. -/
def bitsOf (sign : Sign) (scale : BitVec 11) (fraction : BitVec 52) : BitVec 64 :=
  packComponents binary64 sign scale fraction

variable {sign : Sign} {scale : BitVec 11} {fraction : BitVec 52}

private theorem toNat_bitsOf (sign : Sign) (scale : BitVec 11) (fraction : BitVec 52) :
    (bitsOf sign scale fraction).toNat =
      (sign.toBitVec.toNat * 2048 + scale.toNat) * leadingBit + fraction.toNat := by
  have joined : (bitsOf sign scale fraction).toNat =
      (sign.toBitVec.toNat <<< 11 ||| scale.toNat) <<< 52 ||| fraction.toNat := by
    rw [bitsOf, packComponents, BitVec.toNat_append, BitVec.toNat_append]
  rw [joined, ← Nat.shiftLeft_add_eq_or_of_lt scale.isLt, ← Nat.shiftLeft_add_eq_or_of_lt fraction.isLt,
    Nat.shiftLeft_eq, Nat.shiftLeft_eq]
  rfl

private theorem neg_unpack (sign : Sign) (scale : BitVec 11) (fraction : BitVec 52) :
    (UnpackedFloat.unpack binary64 (bitsOf sign scale fraction)).neg =
      UnpackedFloat.unpack binary64 (bitsOf (-sign) scale fraction) := by
  simp only [UnpackedFloat.unpack, bitsOf, UnpackedFloat.unpackSign_packComponents,
    UnpackedFloat.unpackExponent_packComponents, UnpackedFloat.unpackMantissa_packComponents,
    Sign.ofBitVec_toBitVec]
  split
  · split <;> rfl
  · split
    · split <;> rfl
    · rfl

theorem pack_unpack (number : scale = -1#11 → fraction = 0#52) :
    (UnpackedFloat.pack binary64 (UnpackedFloat.unpack binary64 (bitsOf sign scale fraction))) =
      bitsOf sign scale fraction := by
  have listed : @UnpackedFloat.isNaNBits binary64 (bitsOf sign scale fraction) = false := by
    simp only [UnpackedFloat.isNaNBits, bitsOf, UnpackedFloat.unpackExponent_packComponents,
      UnpackedFloat.unpackMantissa_packComponents, decide_eq_false_iff_not, not_and, not_not]
    exact number
  rw [UnpackedFloat.pack_unpack, listed]
  rfl

private theorem toBits_ofBits (number : scale = -1#11 → fraction = 0#52) :
    (Float.ofBits ⟨bitsOf sign scale fraction⟩).toBits = ⟨bitsOf sign scale fraction⟩ :=
  congrArg UInt64.ofBitVec (pack_unpack number)

private theorem toBits_neg_ofBits (number : scale = -1#11 → fraction = 0#52) :
    (-Float.ofBits ⟨bitsOf sign scale fraction⟩).toBits = ⟨bitsOf (-sign) scale fraction⟩ := by
  have inner : (Float.ofBits ⟨bitsOf sign scale fraction⟩).toModel.unpack =
      UnpackedFloat.unpack binary64 (bitsOf sign scale fraction) :=
    congrArg (UnpackedFloat.unpack binary64) (pack_unpack number)
  calc (-Float.ofBits ⟨bitsOf sign scale fraction⟩).toBits
    _ = ⟨UnpackedFloat.pack binary64
          (Float.ofBits ⟨bitsOf sign scale fraction⟩).toModel.unpack.neg⟩ := rfl
    _ = ⟨bitsOf (-sign) scale fraction⟩ := by rw [inner, neg_unpack, pack_unpack number]

end bits

section magnitudes

/-- A double with a sign in front. -/
def withSign (negative : Bool) (x : Float) : Float := if negative then -x else x

/-- The greatest magnitude is that of infinity: its scale is full and its fraction is empty. -/
theorem toNat_toBits_withSign (negative : Bool) (bits : Nat) :
    (withSign negative (ofMagnitudeBits bits)).toBits.toNat =
      negative.toNat * 2048 * leadingBit + min bits (infiniteScale * leadingBit) := by
  let magnitude := min bits (infiniteScale * leadingBit)
  have most : magnitude ≤ infiniteScale * leadingBit := Nat.min_le_right ..
  have scaleBound : magnitude / leadingBit < 2048 := by
    simp only [infiniteScale, leadingBit] at most ⊢
    omega
  have fractionBound : magnitude % leadingBit < 4503599627370496 := Nat.mod_lt _ (by decide)
  let scale := BitVec.ofNat 11 (magnitude / leadingBit)
  let fraction := BitVec.ofNat 52 (magnitude % leadingBit)
  have toNat_scale : scale.toNat = magnitude / leadingBit := Nat.mod_eq_of_lt scaleBound
  have toNat_fraction : fraction.toNat = magnitude % leadingBit := Nat.mod_eq_of_lt fractionBound
  have number : scale = -1#11 → fraction = 0#52 := by
    intro full
    have scaled : magnitude / leadingBit = 2047 := toNat_scale.symm.trans (congrArg BitVec.toNat full)
    apply BitVec.eq_of_toNat_eq
    rw [toNat_fraction]
    simp only [infiniteScale, leadingBit] at most scaled ⊢
    simp only [BitVec.toNat_ofNat]
    omega
  have split (sign : Sign) : (bitsOf sign scale fraction).toNat =
      sign.toBitVec.toNat * 2048 * leadingBit + magnitude := by
    rw [toNat_bitsOf, toNat_scale, toNat_fraction, Nat.add_mul, Nat.add_assoc, Nat.div_add_mod']
  have word : UInt64.ofNat magnitude = ⟨bitsOf .positive scale fraction⟩ := by
    apply UInt64.toNat_inj.mp
    calc (UInt64.ofNat magnitude).toNat
      _ = magnitude := Nat.mod_eq_of_lt (Nat.lt_of_le_of_lt most (by decide))
      _ = 0 * 2048 * leadingBit + magnitude := by simp
      _ = (bitsOf .positive scale fraction).toNat := (split .positive).symm
  have double : ofMagnitudeBits bits = Float.ofBits ⟨bitsOf .positive scale fraction⟩ :=
    congrArg Float.ofBits word
  cases negative with
  | false =>
    calc (ofMagnitudeBits bits).toBits.toNat
      _ = (bitsOf .positive scale fraction).toNat := by rw [double, toBits_ofBits number]; rfl
      _ = false.toNat * 2048 * leadingBit + magnitude := split .positive
  | true =>
    calc (-ofMagnitudeBits bits).toBits.toNat
      _ = (bitsOf .negative scale fraction).toNat := by rw [double, toBits_neg_ofBits number]; rfl
      _ = true.toNat * 2048 * leadingBit + magnitude := split .negative

private theorem ofFloat?_of_toBits {x : Float} {negative : Bool} {scale fraction : Nat}
    (bits : x.toBits.toNat = (negative.toNat * 2048 + scale) * leadingBit + fraction)
    (low : scale < 2048) (small : fraction < leadingBit) :
    Binary.ofFloat? x = if scale = infiniteScale then none
      else if scale = 0 then some ⟨negative, fraction, leastExponent⟩
      else some ⟨negative, leadingBit + fraction, leastExponent + scale - 1⟩ := by
  have fraction_eq : x.toBits.toNat % leadingBit = fraction := by
    simp only [leadingBit] at bits small ⊢
    omega
  have scale_eq : x.toBits.toNat / leadingBit % 2048 = scale := by
    simp only [leadingBit] at bits small ⊢
    omega
  have sign_eq : signBit x = negative := by
    have quotient : x.toBits.toNat / (2048 * leadingBit) = negative.toNat := by
      simp only [leadingBit] at bits small ⊢
      omega
    rw [signBit, quotient]
    cases negative <;> rfl
  simp only [Binary.ofFloat?, fraction_eq, scale_eq, sign_eq]

/-- The exact value of a double that is made of a magnitude and a sign. -/
theorem ofFloat?_withSign (negative : Bool) {scale fraction : Nat} (small : fraction < leadingBit) :
    Binary.ofFloat? (withSign negative (ofMagnitudeBits (scale * leadingBit + fraction))) =
      if infiniteScale ≤ scale then none
      else if scale = 0 then some ⟨negative, fraction, leastExponent⟩
      else some ⟨negative, leadingBit + fraction, leastExponent + scale - 1⟩ := by
  have bits := toNat_toBits_withSign negative (scale * leadingBit + fraction)
  by_cases full : infiniteScale ≤ scale
  · have clamped : min (scale * leadingBit + fraction) (infiniteScale * leadingBit) =
        infiniteScale * leadingBit :=
      Nat.min_eq_right (Nat.le_add_right_of_le (Nat.mul_le_mul_right _ full))
    rw [clamped, ← Nat.add_mul] at bits
    rw [ofFloat?_of_toBits (bits.trans (Nat.add_zero _).symm) (by decide) (Nat.two_pow_pos 52),
      if_pos rfl, if_pos full]
  · have within : min (scale * leadingBit + fraction) (infiniteScale * leadingBit) =
        scale * leadingBit + fraction := by
      simp only [infiniteScale, leadingBit] at full small ⊢
      omega
    rw [within, ← Nat.add_assoc, ← Nat.add_mul] at bits
    have low : scale < 2048 := Nat.lt_trans (Nat.lt_of_not_le full) (by decide)
    rw [ofFloat?_of_toBits bits low small, if_neg full, if_neg (fun same => full same.ge)]

end magnitudes

end Phrasebook.Decimal
