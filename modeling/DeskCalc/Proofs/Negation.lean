import Mathlib
import DeskCalc.Proofs.RoundTrip

/-! Negative numbers.  The words of a number and of the one with the other sign unpack to the same
magnitude.  The opposite of a number has that magnitude with the other sign, and so has zero minus
the number if the number is not zero.  A decimal after a minus sign is the opposite of the decimal,
and a whole number after one is zero minus the whole number. -/

namespace DeskCalc

namespace Binary64

open Float.Model Float.Model.UnpackedFloat

/-- The word of a sign and the bits of a magnitude. -/
def word (negative : Bool) (bits : Nat) : BitVec Format.binary64.numBits :=
  BitVec.ofNat 64 ((if negative then 2 ^ 63 else 0) + bits)

theorem toNat_word {bits : Nat} (h : bits < 2 ^ 63) (negative : Bool) :
    (word negative bits).toNat = (if negative then 2 ^ 63 else 0) + bits := by
  refine Nat.mod_eq_of_lt ?_
  show _ < 2 ^ 64
  split <;> omega

/-- Packing keeps what was unpacked, also where it replaces one word of no number by another. -/
theorem unpack_pack_unpack (w : BitVec Format.binary64.numBits) :
    UnpackedFloat.unpack .binary64 (UnpackedFloat.pack .binary64 (UnpackedFloat.unpack .binary64 w))
      = UnpackedFloat.unpack .binary64 w := by
  rw [pack_unpack w]
  split
  · next isNaN =>
    simp only [isNaNBits, decide_eq_true_eq] at isNaN
    rw [unpack_packedNaN]
    simp [UnpackedFloat.unpack, isNaN.1, isNaN.2]
  · rfl

theorem unpack_ofSignBits (negative : Bool) (bits : Nat) :
    (ofSignBits negative bits).toModel.unpack
      = UnpackedFloat.unpack .binary64 (word negative bits) :=
  unpack_pack_unpack (word negative bits)

theorem unpack_negative {bits : Nat} (h : bits < 2 ^ 63) :
    UnpackedFloat.unpack .binary64 (word true bits)
      = (UnpackedFloat.unpack .binary64 (word false bits)).neg := by
  have positive : (word false bits).toNat = bits := by simp [toNat_word h]
  have negative : (word true bits).toNat = 2 ^ 63 + bits := by simp [toNat_word h]
  have mantissa : unpackMantissa (word true bits) = unpackMantissa (word false bits) := by
    rw [unpackMantissa_def, unpackMantissa_def]
    apply BitVec.eq_of_toNat_eq
    simp only [BitVec.extractLsb'_toNat, positive, negative, Nat.shiftRight_eq_div_pow]
    omega
  have exponent : unpackExponent (word true bits) = unpackExponent (word false bits) := by
    rw [unpackExponent_def, unpackExponent_def]
    apply BitVec.eq_of_toNat_eq
    simp only [BitVec.extractLsb'_toNat, positive, negative, Nat.shiftRight_eq_div_pow]
    omega
  have signs (s : Bool) : unpackSign (word s bits) = if s then 1#1 else 0#1 := by
    rw [unpackSign_def]
    apply BitVec.eq_of_toNat_eq
    simp only [BitVec.extractLsb'_toNat, toNat_word h, Nat.shiftRight_eq_div_pow]
    cases s <;> simp <;> omega
  simp only [UnpackedFloat.unpack, mantissa, exponent, signs]
  split
  · split <;> rfl
  · split
    · split <;> rfl
    · rfl

theorem unpack_ne_zero {bits : Nat} (positive : 0 < bits) (h : bits < 2 ^ 63) (sign : Sign) :
    UnpackedFloat.unpack .binary64 (word false bits) ≠ .zero sign := by
  intro zero
  have value : (word false bits).toNat = bits := by simp [toNat_word h]
  simp only [UnpackedFloat.unpack] at zero
  split at zero
  · split at zero <;> exact absurd zero (by simp)
  · split at zero
    · next exponent =>
      split at zero
      · next mantissa =>
        have low := congrArg BitVec.toNat mantissa
        have high := congrArg BitVec.toNat exponent
        simp only [unpackMantissa_def, unpackExponent_def, BitVec.extractLsb'_toNat, value,
          Nat.shiftRight_eq_div_pow, BitVec.toNat_ofNat] at low high
        omega
      · exact absurd zero (by simp)
    · exact absurd zero (by simp)

/-- Zero of either sign minus a magnitude is the magnitude with a minus sign. -/
theorem zero_sub_ofSignBits {bits : Nat} (positive : 0 < bits) (h : bits < 2 ^ 63)
    (negative : Bool) : zero negative - ofSignBits false bits = ofSignBits true bits := by
  obtain ⟨sign, minuend⟩ : ∃ sign, (zero negative).toModel.unpack = .zero sign := by
    cases negative with
    | false => exact ⟨.positive, unpack_ofSignBits false 0⟩
    | true => exact ⟨.negative, unpack_ofSignBits true 0⟩
  have difference : Float.Model.pack (UnpackedFloat.sub .binary64 (zero negative).toModel.unpack
        (ofSignBits false bits).toModel.unpack)
      = Float.Model.pack (UnpackedFloat.unpack .binary64 (word true bits)) := by
    rw [minuend, unpack_ofSignBits, unpack_negative h]
    have nonzero := unpack_ne_zero positive h
    cases u : UnpackedFloat.unpack .binary64 (word false bits) with
    | zero s => exact absurd u (nonzero s)
    | notANumber => rfl
    | infinity s => rfl
    | finite s m e hm => rfl
  exact congrArg Float.ofModel difference

theorem neg_neg_unpacked (u : UnpackedFloat) : u.neg.neg = u := by
  have sign (s : Sign) : -(-s) = s := by cases s <;> rfl
  cases u with
  | notANumber => rfl
  | infinity s => exact congrArg UnpackedFloat.infinity (sign s)
  | zero s => exact congrArg UnpackedFloat.zero (sign s)
  | finite s m e positive => simp only [UnpackedFloat.neg, sign]

/-- The opposite of a magnitude is the magnitude with the other sign. -/
theorem neg_ofSignBits {bits : Nat} (h : bits < 2 ^ 63) (negative : Bool) :
    -ofSignBits negative bits = ofSignBits (!negative) bits := by
  have opposite : (UnpackedFloat.unpack .binary64 (word negative bits)).neg
      = UnpackedFloat.unpack .binary64 (word (!negative) bits) := by
    cases negative with
    | false => exact (unpack_negative h).symm
    | true => rw [unpack_negative h, neg_neg_unpacked, Bool.not_true]
  have packed : Float.Model.pack (ofSignBits negative bits).toModel.unpack.neg
      = Float.Model.pack (UnpackedFloat.unpack .binary64 (word (!negative) bits)) := by
    rw [unpack_ofSignBits, opposite]
  exact congrArg Float.ofModel packed

/-- A whole number from one on does not round to zero. -/
theorem nearestBits_whole {n : Nat} (positive : 0 < n) :
    0 < nearestBits n 1 ∧ nearestBits n 1 < 2 ^ 63 := by
  have quanta : 2 ^ 1074 ≤ n * 2 ^ 1074 / 1 := by
    rw [Nat.div_one]
    exact Nat.le_mul_of_pos_left _ positive
  have leading : 1074 ≤ (n * 2 ^ 1074 / 1).log2 := by
    rw [Nat.le_log2 (Nat.ne_of_gt (Nat.lt_of_lt_of_le (Nat.two_pow_pos _) quanta))]
    exact quanta
  simp only [nearestBits, infinityBits]
  generalize (n * 2 ^ 1074 / 1).log2 = l at leading ⊢
  generalize roundDiv _ _ = m
  omega

end Binary64

namespace Decimal

open Binary64

/-- A decimal with the other sign is the opposite number. -/
theorem neg_toFloat (negative : Bool) (d : Decimal) :
    -toFloat negative d = toFloat (!negative) d := by
  unfold toFloat
  repeat' split
  · exact neg_ofSignBits (by decide) negative
  · exact neg_ofSignBits (by decide) negative
  · exact neg_ofSignBits (by decide) negative
  · have bound : nearestBits d.num d.den < 2 ^ 63 :=
      Nat.lt_of_le_of_lt (Nat.min_le_left _ _) (by decide)
    exact neg_ofSignBits bound negative

/-- A whole number with a minus sign is zero minus the number. -/
theorem toFloat_negative {n : Nat} (positive : n ≠ 0) (negative : Bool) :
    toFloat true ⟨n, 0⟩ = zero negative - toFloat false ⟨n, 0⟩ := by
  obtain ⟨pos, finite⟩ := nearestBits_whole (Nat.pos_of_ne_zero positive)
  have moderate := Moderate.whole positive
  rw [moderate.toFloat_eq, moderate.toFloat_eq]
  have ratio : num ⟨n, 0⟩ = n ∧ den ⟨n, 0⟩ = 1 := by simp [num, den]
  rw [ratio.1, ratio.2, nearest, nearest, zero_sub_ofSignBits pos finite]

end Decimal

end DeskCalc
