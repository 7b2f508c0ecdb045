import DeskCalc.Decimal.Basic
import Mathlib.Tactic.MkIffOfInductiveProp

/-! Rounding to the nearest binary number.  Every ratio in the interval of a magnitude rounds to it,
also where the interval reaches below the least mantissa of a binade: there the ratio is rounded with
the smaller shift, and the mantissa carries.  The shortest decimal of a magnitude lies in its
interval. -/

namespace DeskCalc

namespace Binary64

/-- `m` is nearest to `n / d`; of two nearest ones it is the even one. -/
structure RoundsTo (n d m : Nat) : Prop where
  low : 2 * (m * d) ≤ 2 * n + d
  high : 2 * n ≤ 2 * (m * d) + d
  tie : m % 2 = 1 → 2 * (m * d) ≠ 2 * n + d ∧ 2 * n ≠ 2 * (m * d) + d

theorem RoundsTo.roundDiv_eq {n d m : Nat} (h : RoundsTo n d m) (hd : 0 < d) : roundDiv n d = m := by
  obtain ⟨low, high, tie⟩ := h
  have split : n / d * d + n % d = n := Nat.div_add_mod' n d
  have rest : n % d < d := Nat.mod_lt n hd
  have notAbove : ¬ m + 1 ≤ n / d := by
    intro above
    have := Nat.mul_le_mul_right d above
    rw [Nat.add_mul, Nat.one_mul] at this
    omega
  have notBelow : ¬ n / d + 2 ≤ m := by
    intro below
    have := Nat.mul_le_mul_right d below
    rw [Nat.add_mul] at this
    omega
  have close : n / d = m ∨ n / d + 1 = m := by omega
  unfold roundDiv
  simp only
  rcases close with rfl | rfl
  · split
    · rfl
    · split <;> omega
  · rw [Nat.add_mul, Nat.one_mul] at low high tie
    split
    · omega
    · split <;> omega

/-- The place of the leading bit of a quotient that lies in the binade of a shift. -/
theorem log2_of_quotient {x d s : Nat} (hd : 0 < d) (low : 2 ^ 52 * (d * 2 ^ s) ≤ x)
    (high : x < 2 ^ 53 * (d * 2 ^ s)) : (x / d).log2 = 52 + s := by
  have scale (k : Nat) : 2 ^ k * (d * 2 ^ s) = 2 ^ (k + s) * d := by
    rw [Nat.pow_add]
    ac_rfl
  rw [scale] at low high
  have atLeast : 2 ^ (52 + s) ≤ x / d := (Nat.le_div_iff_mul_le hd).2 low
  have below : x / d < 2 ^ (53 + s) := (Nat.div_lt_iff_lt_mul hd).2 high
  have positive : 0 < 2 ^ (52 + s) := Nat.two_pow_pos _
  rw [Nat.log2_eq_iff (by omega)]
  exact ⟨atLeast, by rwa [show 52 + s + 1 = 53 + s by omega]⟩

/-- A ratio with a given shift and mantissa has the bits of both, unless it is past the finite
numbers. -/
theorem nearestBits_of_shift {num den s m : Nat} (hden : 0 < den)
    (shift : (num * 2 ^ 1074 / den).log2 - 52 = s)
    (rounds : RoundsTo (num * 2 ^ 1074) (den * 2 ^ s) m) (finite : s * 2 ^ 52 + m < infinityBits) :
    nearestBits num den = s * 2 ^ 52 + m := by
  have positive : 0 < den * 2 ^ s := Nat.mul_pos hden (Nat.two_pow_pos s)
  unfold nearestBits
  simp only [shift, rounds.roundDiv_eq positive]
  omega

/-- Rounding looks at the ratio alone. -/
theorem nearest_mul_left {k : Nat} (hk : 0 < k) (negative : Bool) (num den : Nat) :
    nearest negative (k * num) (k * den) = nearest negative num den := by
  have round (n d : Nat) : roundDiv (k * n) (k * d) = roundDiv n d := by
    have less : 2 * (k * (n % d)) < k * d ↔ 2 * (n % d) < d := by
      rw [Nat.mul_left_comm]
      exact Nat.mul_lt_mul_left hk
    have equal : 2 * (k * (n % d)) = k * d ↔ 2 * (n % d) = d := by
      rw [Nat.mul_left_comm]
      exact Nat.mul_right_inj (Nat.ne_of_gt hk)
    simp only [roundDiv, Nat.mul_div_mul_left _ _ hk, Nat.mul_mod_mul_left, less, equal]
  simp only [nearest, nearestBits, Nat.mul_assoc, Nat.mul_div_mul_left _ _ hk, round]

/-- The ratio `num / den` rounds to a magnitude: it lies between the middles to its neighbours, and
an odd mantissa leaves the middles out.  The neighbour below the least mantissa of a binade is half
as far as the one above. -/
@[mk_iff]
structure Around (a : Magnitude) (num den : Nat) : Prop where
  low : 4 * (a.mantissa * (den * 2 ^ a.shift)) ≤ 4 * (num * 2 ^ 1074)
    + (if a.mantissa = 2 ^ 52 ∧ 0 < a.shift then 1 else 2) * (den * 2 ^ a.shift)
  high : 4 * (num * 2 ^ 1074) ≤ 4 * (a.mantissa * (den * 2 ^ a.shift)) + 2 * (den * 2 ^ a.shift)
  tie : a.mantissa % 2 = 1 →
    4 * (a.mantissa * (den * 2 ^ a.shift)) ≠ 4 * (num * 2 ^ 1074) + 2 * (den * 2 ^ a.shift) ∧
      4 * (num * 2 ^ 1074) ≠ 4 * (a.mantissa * (den * 2 ^ a.shift)) + 2 * (den * 2 ^ a.shift)

theorem around_of_eq {a : Magnitude} {num den : Nat} (h : num * 2 ^ 1074 = a.quanta * den)
    (hden : 0 < den) : Around a num den := by
  have middle : num * 2 ^ 1074 = a.mantissa * (den * 2 ^ a.shift) := by
    rw [h, Magnitude.quanta]
    ac_rfl
  have positive : 0 < den * 2 ^ a.shift := Nat.mul_pos hden (Nat.two_pow_pos _)
  simp only [around_iff, middle]
  exact ⟨by omega, by omega, fun _ => by omega⟩

theorem Around.roundsTo {a : Magnitude} {num den : Nat} (h : Around a num den) :
    RoundsTo (num * 2 ^ 1074) (den * 2 ^ a.shift) a.mantissa := by
  obtain ⟨low, high, tie⟩ := h
  refine ⟨?_, by omega, fun odd => ?_⟩
  · split at low <;> omega
  · have := tie odd
    omega

theorem Around.lt {a : Magnitude} {num den : Nat} (h : Around a num den) (small : a.mantissa < 2 ^ 53)
    (hden : 0 < den) : num * 2 ^ 1074 < 2 ^ 53 * (den * 2 ^ a.shift) := by
  have high := h.high
  have positive : 0 < den * 2 ^ a.shift := Nat.mul_pos hden (Nat.two_pow_pos _)
  have := Nat.mul_le_mul_right (den * 2 ^ a.shift) (show a.mantissa ≤ 2 ^ 53 - 1 by omega)
  omega

/-- A ratio around the least magnitude of a binade, but below it, is rounded with the shift of the
binade below, and the mantissa carries. -/
theorem Around.nearestBits_carry {t num den : Nat} (h : Around ⟨2 ^ 52, t + 1⟩ num den) (hden : 0 < den)
    (finite : (t + 1) * 2 ^ 52 + 2 ^ 52 < infinityBits)
    (below : num * 2 ^ 1074 < 2 ^ 52 * (den * 2 ^ (t + 1))) :
    nearestBits num den = (t + 1) * 2 ^ 52 + 2 ^ 52 := by
  have double : den * 2 ^ (t + 1) = 2 * (den * 2 ^ t) := by
    rw [Nat.pow_succ]
    ac_rfl
  have positive : 0 < den * 2 ^ t := Nat.mul_pos hden (Nat.two_pow_pos t)
  have low := h.low
  rw [if_pos ⟨rfl, Nat.succ_pos t⟩] at low
  simp only [double] at low below
  have carries : RoundsTo (num * 2 ^ 1074) (den * 2 ^ t) (2 ^ 53) :=
    ⟨by omega, by omega, fun odd => absurd odd (by decide)⟩
  have leading : (num * 2 ^ 1074 / den).log2 - 52 = t := by
    rw [log2_of_quotient hden (s := t) (by omega) (by omega)]
    omega
  have carried : t * 2 ^ 52 + 2 ^ 53 = (t + 1) * 2 ^ 52 + 2 ^ 52 := by omega
  rw [← carried] at finite ⊢
  exact nearestBits_of_shift hden leading carries finite

/-- A ratio around a magnitude rounds to it. -/
theorem Around.nearestBits_eq {a : Magnitude} {num den : Nat} (h : Around a num den)
    (canonical : a.Canonical) (finite : a.bits < infinityBits) (hden : 0 < den) :
    nearestBits num den = a.bits := by
  have below := h.lt canonical.1 hden
  have rounds := h.roundsTo
  obtain ⟨m, s⟩ := a
  simp only at below rounds
  rcases Nat.eq_zero_or_pos s with rfl | raised
  -- No shift is needed when the quotient is below the mantissas with a shift.
  · refine nearestBits_of_shift hden ?_ rounds finite
    rw [Nat.pow_zero, Nat.mul_one] at below
    have quotient : num * 2 ^ 1074 / den < 2 ^ 53 := (Nat.div_lt_iff_lt_mul hden).2 below
    show (num * 2 ^ 1074 / den).log2 - 52 = 0
    rcases Nat.eq_zero_or_pos (num * 2 ^ 1074 / den) with zero | positive
    · rw [zero]
      rfl
    · have := (Nat.log2_lt (Nat.ne_of_gt positive)).2 quotient
      omega
  · have least : 2 ^ 52 ≤ m := canonical.2.resolve_left (Nat.ne_of_gt raised)
    by_cases reaches : 2 ^ 52 * (den * 2 ^ s) ≤ num * 2 ^ 1074
    · refine nearestBits_of_shift hden ?_ rounds finite
      rw [log2_of_quotient hden reaches below]
      show 52 + s - 52 = s
      omega
    · obtain ⟨t, rfl⟩ : ∃ t, s = t + 1 := ⟨s - 1, by omega⟩
      have lowest : m = 2 ^ 52 := by
        have low := rounds.low
        have positive : 0 < den * 2 ^ (t + 1) := Nat.mul_pos hden (Nat.two_pow_pos _)
        by_cases above : 2 ^ 52 + 1 ≤ m
        · have := Nat.mul_le_mul_right (den * 2 ^ (t + 1)) above
          omega
        · omega
      subst lowest
      exact h.nearestBits_carry hden finite (by omega)

end Binary64

namespace Decimal

open Binary64

theorem den_pos (d : Decimal) : 0 < d.den := Nat.pow_pos (by decide)

/-- The interval of a magnitude holds the decimals that are around it. -/
theorem contains_around_iff (a : Magnitude) (d : Decimal) :
    (Interval.around a).contains d ↔ Around a d.num d.den := by
  have quadruple {j k : Nat} (h : j = k + 2) : d.num * 2 ^ j = 4 * (d.num * 2 ^ k) := by
    rw [h, Nat.pow_add, ← Nat.mul_assoc, Nat.mul_comm]
  have quarters := quadruple (show 1076 = 1074 + 2 from rfl)
  have middle : 4 * a.quanta * d.den = 4 * (a.mantissa * (d.den * 2 ^ a.shift)) := by
    rw [Magnitude.quanta]
    ac_rfl
  have gap (c : Nat) : c * 2 ^ a.shift * d.den = c * (d.den * 2 ^ a.shift) := by ac_rfl
  have low (c : Nat) : (4 * a.quanta - c * 2 ^ a.shift) * d.den
      = 4 * (a.mantissa * (d.den * 2 ^ a.shift)) - c * (d.den * 2 ^ a.shift) := by
    rw [Nat.sub_mul, middle, gap]
  have high : (4 * a.quanta + 2 * 2 ^ a.shift) * d.den
      = 4 * (a.mantissa * (d.den * 2 ^ a.shift)) + 2 * (d.den * 2 ^ a.shift) := by
    rw [Nat.add_mul, middle, gap]
  have positive : 0 < d.den * 2 ^ a.shift := Nat.mul_pos d.den_pos (Nat.two_pow_pos _)
  have odd (h : a.mantissa % 2 = 1) : d.den * 2 ^ a.shift ≤ a.mantissa * (d.den * 2 ^ a.shift) :=
    Nat.le_mul_of_pos_left _ (by omega)
  rw [around_iff]
  simp only [Interval.contains, Interval.around, quarters, low, high, beq_iff_eq, Bool.and_eq_true,
    decide_eq_true_eq]
  generalize d.num * 2 ^ 1074 = x
  generalize d.den * 2 ^ a.shift = unit at *
  generalize a.mantissa * unit = y at *
  by_cases least : a.mantissa = 2 ^ 52 ∧ 0 < a.shift
  · have even : a.mantissa % 2 = 0 := by omega
    simp only [if_pos least, if_pos even, Nat.one_mul, Bool.and_eq_true, decide_eq_true_eq]
    omega
  · simp only [if_neg least]
    split
    all_goals
      simp only [Bool.and_eq_true, decide_eq_true_eq]
      omega

theorem contains_of_pointOn {a : Magnitude} {e : Int} {d : Decimal} (h : pointOn a e = some d) :
    (Interval.around a).contains d := by
  simp only [pointOn] at h
  split at h
  · exact absurd h (by simp)
  · next below _ =>
    obtain rfl := Option.some.inj h
    exact below
  · next _ above =>
    obtain rfl := Option.some.inj h
    exact above
  · next below above =>
    split at h
    · obtain rfl := Option.some.inj h
      exact below
    · obtain rfl := Option.some.inj h
      exact above

theorem isSome_pointOn {a : Magnitude} {e : Int}
    (h : (Interval.around a).contains ⟨a.quanta * 10 ^ (-e).toNat / (10 ^ e.toNat * 2 ^ 1074), e⟩) :
    (pointOn a e).isSome := by
  simp only [pointOn, h]
  split
  · next below _ => exact absurd below (by simp)
  · rfl
  · next below _ => exact absurd below (by simp)
  · split <;> rfl

/-- On a grid four times finer than a quantum, the point below a magnitude is in its interval. -/
theorem isSome_pointOn_of_fine {a : Magnitude} {k : Nat} (fine : 4 * 2 ^ 1074 ≤ 10 ^ k) :
    (pointOn a (-k)).isSome := by
  refine isSome_pointOn ((contains_around_iff _ _).2 ?_)
  have exponents : (-(-k : Int)).toNat = k ∧ (-k : Int).toNat = 0 := by omega
  have scaled : a.quanta * 10 ^ k = a.mantissa * (10 ^ k * 2 ^ a.shift) := by
    rw [Magnitude.quanta]
    ac_rfl
  have unit : 10 ^ k ≤ 10 ^ k * 2 ^ a.shift := Nat.le_mul_of_pos_right _ (Nat.two_pow_pos _)
  simp only [around_iff, num, den, exponents, scaled, Nat.pow_zero, Nat.mul_one, Nat.one_mul]
  have below := Nat.div_add_mod' (a.mantissa * (10 ^ k * 2 ^ a.shift)) (2 ^ 1074)
  have rest := Nat.mod_lt (a.mantissa * (10 ^ k * 2 ^ a.shift)) (Nat.two_pow_pos 1074)
  generalize a.mantissa * (10 ^ k * 2 ^ a.shift) = value at *
  generalize value / 2 ^ 1074 * 2 ^ 1074 = point at *
  generalize value % 2 ^ 1074 = offset at *
  generalize 2 ^ 1074 = quantum at *
  generalize 10 ^ k * 2 ^ a.shift = gap at *
  refine ⟨?_, by omega, fun _ => by omega⟩
  split <;> omega

theorem contains_of_firstPoint {a : Magnitude} {count : Nat} {e : Int} {d : Decimal}
    (h : firstPoint a count e = some d) : (Interval.around a).contains d := by
  induction count generalizing e with
  | zero => exact absurd h (by simp [firstPoint])
  | succ count ih =>
    rw [firstPoint] at h
    split at h
    · next point =>
      obtain rfl := Option.some.inj h
      exact contains_of_pointOn point
    · exact ih h

/-- The search finds a point when the last of its grids has one. -/
theorem isSome_firstPoint {a : Magnitude} {count : Nat} {e : Int}
    (last : (pointOn a (e - count)).isSome) : (firstPoint a (count + 1) e).isSome := by
  induction count generalizing e with
  | zero =>
    obtain ⟨d, point⟩ := Option.isSome_iff_exists.1 last
    rw [Int.ofNat_zero, Int.sub_zero] at point
    simp [firstPoint, point]
  | succ count ih =>
    rw [firstPoint]
    split
    · rfl
    · refine ih ?_
      rwa [Int.sub_sub, Int.add_comm 1]

/-- The shortest decimal of a magnitude lies in its interval. -/
theorem around_shortest (a : Magnitude) : Around a (shortest a).num (shortest a).den := by
  have last : (pointOn a (wholeDigits a - (wholeDigits a + 324 : Nat))).isSome := by
    have grid : (wholeDigits a : Int) - (wholeDigits a + 324 : Nat) = -324 := by omega
    rw [grid]
    exact isSome_pointOn_of_fine (k := 324) (by decide +kernel)
  obtain ⟨d, point⟩ := Option.isSome_iff_exists.1 (isSome_firstPoint last)
  have found : shortest a = d := by
    rw [shortest, point]
    rfl
  rw [found, ← contains_around_iff]
  exact contains_of_firstPoint point

end Decimal

end DeskCalc
