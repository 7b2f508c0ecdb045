import Mathlib
import DeskCalc.Proofs.RoundTrip

/-! Which numbers are written without an exponent.  The leading digit of a decimal tells between
which powers of ten it lies.  A power of ten that rounds to a number of which it is itself the
shortest decimal does not come between any number and its shortest decimal, so that the numbers from
`0.0001` up to `1e16` are the ones that are written positionally. -/

namespace DeskCalc

open Binary64

/-- A magnitude as a rational number. -/
def Binary64.Magnitude.value (a : Magnitude) : ℚ := a.quanta / 2 ^ 1074

namespace Decimal

def value (d : Decimal) : ℚ := d.coefficient * 10 ^ d.exponent

theorem value_eq (d : Decimal) : d.value = d.num / d.den := by
  obtain ⟨c, e⟩ := d
  rcases Int.le_total 0 e with whole | fraction
  · obtain ⟨k, rfl⟩ := Int.eq_ofNat_of_zero_le whole
    simp [value, num, den]
  · obtain ⟨k, hk⟩ := Int.eq_ofNat_of_zero_le (show 0 ≤ -e by omega)
    obtain rfl : e = -k := by omega
    simp [value, num, den, div_eq_mul_inv]

theorem value_pow (k : ℤ) : value ⟨1, k⟩ = 10 ^ k := by simp [value]

theorem den_cast_pos (d : Decimal) : (0 : ℚ) < d.den := by exact_mod_cast d.den_pos

theorem cast_two_pow (k : Nat) : ((2 ^ k : Nat) : ℚ) = 2 ^ k := by norm_cast

theorem value_le_magnitude_iff (d : Decimal) (a : Magnitude) :
    d.value ≤ a.value ↔ d.num * 2 ^ 1074 ≤ a.quanta * d.den := by
  have unit : (0 : ℚ) < 2 ^ 1074 := by positivity
  rw [value_eq, Magnitude.value, div_le_div_iff₀ d.den_cast_pos unit, ← cast_two_pow]
  generalize 2 ^ 1074 = u
  exact_mod_cast Iff.rfl

/-! ### The leading digit -/

theorem leadingExponent_lt_iff {d : Decimal} (positive : d.coefficient ≠ 0) (k : ℤ) :
    leadingExponent d < k ↔ d.value < 10 ^ k := by
  have length : 0 < (Text.ofNat d.coefficient).length :=
    List.length_pos_of_ne_nil Nat.toDigits_ne_nil
  have least : (10 : ℚ) ^ leadingExponent d ≤ d.value := by
    have power : (10 : ℚ) ^ ((Text.ofNat d.coefficient).length - 1) ≤ d.coefficient := by
      exact_mod_cast pow_le_of_length positive
    have split : leadingExponent d
        = ((Text.ofNat d.coefficient).length - 1 : ℕ) + d.exponent := by
      unfold leadingExponent
      omega
    rw [split, zpow_add₀ (by norm_num), zpow_natCast]
    exact mul_le_mul_of_nonneg_right power (by positivity)
  have greatest : d.value < (10 : ℚ) ^ (leadingExponent d + 1) := by
    have power : (d.coefficient : ℚ) < 10 ^ (Text.ofNat d.coefficient).length := by
      exact_mod_cast (Nat.length_toDigits_le_iff (by decide) length).1 le_rfl
    have split : leadingExponent d + 1 = (Text.ofNat d.coefficient).length + d.exponent := by
      unfold leadingExponent
      omega
    rw [split, zpow_add₀ (by norm_num), zpow_natCast]
    exact mul_lt_mul_of_pos_right power (by positivity)
  constructor
  · intro below
    exact greatest.trans_le (zpow_le_zpow_right₀ (by norm_num) (by omega))
  · intro below
    by_contra above
    have := zpow_le_zpow_right₀ (show (1 : ℚ) ≤ 10 by norm_num) (show k ≤ leadingExponent d by omega)
    linarith

/-! ### Powers of ten and the shortest decimal -/

theorem contains_iff (i : Interval) (d : Decimal) :
    i.contains d ↔ if i.closed then (i.low : ℚ) ≤ d.value * 2 ^ 1076 ∧ d.value * 2 ^ 1076 ≤ i.high
      else (i.low : ℚ) < d.value * 2 ^ 1076 ∧ d.value * 2 ^ 1076 < i.high := by
  have den := d.den_cast_pos
  simp only [Interval.contains, value_eq, div_mul_eq_mul_div, le_div_iff₀ den, div_le_iff₀ den,
    lt_div_iff₀ den, div_lt_iff₀ den, ← cast_two_pow]
  generalize 2 ^ 1076 = u
  split
  all_goals
    simp only [Bool.and_eq_true, decide_eq_true_eq]
    exact_mod_cast Iff.rfl

theorem around_bounds (a : Magnitude) :
    ((Interval.around a).low : ℚ) ≤ a.value * 2 ^ 1076 ∧
      a.value * 2 ^ 1076 < (Interval.around a).high := by
  have quarters : a.value * 2 ^ 1076 = ((4 * a.quanta : ℕ) : ℚ) := by
    have unit : (2 : ℚ) ^ 1074 ≠ 0 := pow_ne_zero _ two_ne_zero
    rw [Magnitude.value, show 1076 = 1074 + 2 from rfl, pow_add, ← mul_assoc, div_mul_cancel₀ _ unit]
    push_cast
    ring
  have gap : 0 < 2 ^ a.shift := Nat.two_pow_pos _
  rw [quarters]
  simp only [Interval.around, Nat.cast_le, Nat.cast_lt]
  omega

/-- A decimal between a magnitude and a decimal of its interval is in the interval too. -/
theorem contains_of_between {a : Magnitude} {d p : Decimal} (h : (Interval.around a).contains d)
    (between : d.value < p.value ∧ p.value ≤ a.value ∨ a.value < p.value ∧ p.value ≤ d.value) :
    (Interval.around a).contains p := by
  obtain ⟨low, high⟩ := around_bounds a
  have unit : (0 : ℚ) < 2 ^ 1076 := by positivity
  rw [contains_iff] at h ⊢
  generalize (2 : ℚ) ^ 1076 = u at *
  rcases between with ⟨below, above⟩ | ⟨below, above⟩
  all_goals
    have below' := mul_lt_mul_of_pos_right below unit
    have above' := mul_le_mul_of_nonneg_right above unit.le
    split_ifs at h ⊢
    all_goals
      obtain ⟨h₁, h₂⟩ := h
      constructor <;> linarith

/-- A power of ten that is the shortest decimal of the number it rounds to is no greater than a number
exactly if it is no greater than the shortest decimal of the number. -/
theorem pow_le_shortest_iff {k : ℤ} {a : Magnitude} (canonical : a.Canonical)
    (finite : a.bits < infinityBits)
    (exact : shortest (Magnitude.ofBits (nearestBits (num ⟨1, k⟩) (den ⟨1, k⟩))) = ⟨1, k⟩)
    (least : num ⟨1, k⟩ * 2 ^ 1074
      ≤ (Magnitude.ofBits (nearestBits (num ⟨1, k⟩) (den ⟨1, k⟩))).quanta * den ⟨1, k⟩) :
    10 ^ k ≤ (shortest a).value ↔ 10 ^ k ≤ a.value := by
  rw [← value_le_magnitude_iff] at least
  rw [← value_pow]
  have found := (contains_around_iff _ _).2 (around_shortest a)
  by_cases inside : (Interval.around a).contains ⟨1, k⟩
  -- The power of ten rounds to the magnitude, so that it is its shortest decimal.
  · have bits := ((contains_around_iff _ _).1 inside).nearestBits_eq canonical finite (den_pos _)
    rw [bits, Magnitude.ofBits_bits canonical] at exact least
    rw [exact]
    exact ⟨fun _ => least, fun _ => le_rfl⟩
  · constructor
    · intro above
      by_contra below
      exact inside (contains_of_between found (.inr ⟨not_le.1 below, above⟩))
    · intro above
      by_contra below
      exact inside (contains_of_between found (.inl ⟨not_le.1 below, above⟩))

/-- A number is written positionally from `0.0001` up to `1e16`. -/
theorem layout_positional_iff {a : Magnitude} (canonical : a.Canonical)
    (finite : a.bits < infinityBits) (nonzero : a.mantissa ≠ 0) :
    (layout.least ≤ leadingExponent (shortest a) ∧ leadingExponent (shortest a) ≤ layout.greatest) ↔
      10 ^ (-4 : ℤ) ≤ a.value ∧ a.value < 10 ^ (16 : ℤ) := by
  have digits := shortest_ne_zero nonzero
  have least := pow_le_shortest_iff (k := -4) canonical finite (by decide +kernel) (by decide +kernel)
  have greatest := pow_le_shortest_iff (k := 16) canonical finite (by decide +kernel) (by decide +kernel)
  have small := leadingExponent_lt_iff digits (-4)
  have large := leadingExponent_lt_iff digits 16
  rw [← least, ← not_le (b := a.value), ← greatest, not_le, ← large, ← not_lt (a := (shortest a).value),
    ← small]
  show (-4 ≤ _ ∧ _ ≤ 15) ↔ _
  omega

/-! ### The texts of both notations -/

theorem exists_last_positional {ds : Text} (digits : Digits ds) (nonempty : ds ≠ []) (e : Int) :
    ∃ c, (positional ds e).getLast? = some c ∧ c.isDigit := by
  obtain ⟨c, last⟩ := Option.isSome_iff_exists.1 (List.getLast?_isSome.2 nonempty)
  have digit : c.isDigit := digits c (List.mem_of_getLast? last)
  unfold positional
  simp only
  split
  · refine ⟨c, ?_, digit⟩
    rw [List.getLast?_append, last, Option.some_or]
  · split
    · refine ⟨'0', ?_, by decide⟩
      rw [List.getLast?_append]
      rfl
    · next long =>
      refine ⟨c, ?_, digit⟩
      rw [List.getLast?_append, List.getLast?_cons_of_ne_nil (by simpa using long),
        List.getLast?_drop, if_neg long, last, Option.some_or]

/-- The exponent ends a text with digits. -/
theorem exists_exponential_eq (width : Nat) (ds : Text) (e : Int) :
    ∃ mantissa exponent c, exponential width ds e = mantissa ++ 'e' :: exponent ∧
      exponent.getLast? = some c ∧ c.isDigit := by
  have nonempty : Text.ofNat e.natAbs ≠ [] := Nat.toDigits_ne_nil
  obtain ⟨c, last⟩ := Option.isSome_iff_exists.1 (List.getLast?_isSome.2 nonempty)
  refine ⟨_, _, c, rfl, ?_, digits_ofNat _ c (List.mem_of_getLast? last)⟩
  rw [padLeft, List.getLast?_cons_of_ne_nil (by simp [nonempty]), List.getLast?_append, last,
    Option.some_or]

end Decimal

end DeskCalc
