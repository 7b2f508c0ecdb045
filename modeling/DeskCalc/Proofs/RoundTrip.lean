import Mathlib
import DeskCalc.Outcome
import DeskCalc.Proofs.Literal
import DeskCalc.Proofs.Rounding

/-! Reading the text of a result.  The digits of a shortest decimal are its coefficient without the
zeros at the end, and where the point stands among them changes neither the ratio nor, with it, the
number the ratio rounds to.  A result without an exponent is read back as the number it is the result
of. -/

namespace DeskCalc

namespace Binary64

/-- A finite number is its sign and the bits of its magnitude. -/
theorem eq_ofSignBits_of_decode {v : Float} {negative : Bool} {a : Magnitude}
    (h : decode v = .finite negative a) :
    v = ofSignBits negative a.bits ∧ a.Canonical ∧ a.bits < infinityBits := by
  simp only [decode] at h
  split at h
  · next finite =>
    obtain ⟨rfl, rfl⟩ := Value.finite.inj h
    rw [Magnitude.bits_ofBits]
    refine ⟨?_, Magnitude.canonical_ofBits _, finite⟩
    have bits : (if isNegative v then 2 ^ 63 else 0) + v.toBits.toNat % 2 ^ 63 = v.toBits.toNat := by
      have := v.toBits.toNat_lt
      simp only [isNegative, decide_eq_true_eq]
      split <;> omega
    rw [ofSignBits, bits, UInt64.ofNat_toNat, Float.ofBits_toBits]
  · split at h <;> exact absurd h (by simp)

theorem eq_zero_of_decode {v : Float} {negative : Bool} {a : Magnitude}
    (decoded : decode v = .finite negative a) (empty : a.mantissa = 0) : v = zero negative := by
  obtain ⟨bits, ⟨-, normal⟩, -⟩ := eq_ofSignBits_of_decode decoded
  have subnormal : a.shift = 0 := by omega
  rw [bits, Magnitude.bits, subnormal, empty, zero]

/-- A ratio around the magnitude of a number rounds to the number. -/
theorem Around.nearest_eq {v : Float} {negative : Bool} {a : Magnitude} {num den : Nat}
    (decoded : decode v = .finite negative a) (h : Around a num den) (hden : 0 < den) :
    nearest negative num den = v := by
  obtain ⟨bits, canonical, finite⟩ := eq_ofSignBits_of_decode decoded
  rw [bits, nearest, h.nearestBits_eq canonical finite hden]

end Binary64

namespace Decimal

open Binary64

/-! ### Decimals of one ratio -/

/-- A decimal that is rounded to its number, neither zero nor so far from one that it is not looked
at. -/
structure Moderate (d : Decimal) : Prop where
  nonzero : d.coefficient ≠ 0
  least : -(400 + (d.coefficient.log2 : Int)) ≤ d.exponent
  greatest : d.exponent ≤ 400

theorem Moderate.toFloat_eq {d : Decimal} (h : d.Moderate) (negative : Bool) :
    d.toFloat negative = nearest negative d.num d.den := by
  rw [toFloat, if_neg h.nonzero, if_neg (by have := h.greatest; omega),
    if_neg (by have := h.least; omega)]

theorem Moderate.whole {n : Nat} (positive : n ≠ 0) : Moderate ⟨n, 0⟩ :=
  ⟨positive, by simp only; omega, by simp only; omega⟩

/-- Zeros at the end of the coefficient count in the exponent. -/
theorem nearest_zeros (negative : Bool) (c j : Nat) (e : Int) :
    nearest negative (num ⟨c * 10 ^ j, e⟩) (den ⟨c * 10 ^ j, e⟩)
      = nearest negative (num ⟨c, e + j⟩) (den ⟨c, e + j⟩) := by
  -- Both ratios are the same up to the powers of ten that stand above and below one in the first.
  have shared : ∃ k, num ⟨c * 10 ^ j, e⟩ = 10 ^ k * num ⟨c, e + j⟩ ∧
      den ⟨c * 10 ^ j, e⟩ = 10 ^ k * den ⟨c, e + j⟩ := by
    refine ⟨min j (-e).toNat, ?_, ?_⟩
    · have powers : j + e.toNat = min j (-e).toNat + (e + j).toNat := by omega
      simp only [num]
      rw [Nat.mul_assoc, ← Nat.pow_add, powers, Nat.pow_add, Nat.mul_left_comm]
    · have powers : (-e).toNat = min j (-e).toNat + (-(e + j)).toNat := by omega
      exact (congrArg (10 ^ ·) powers).trans (Nat.pow_add _ _ _)
  obtain ⟨k, above, below⟩ := shared
  rw [above, below, nearest_mul_left (Nat.pow_pos (by decide))]

/-! ### Significant digits -/

/-- The digits of a numeral without the zeros at its end: they begin with a digit other than zero, so
that their value is no less than a power of ten. -/
structure Significant (n : Nat) (ds : Text) (zeros : Nat) : Prop where
  digits : Digits ds
  nonempty : ds ≠ []
  value : n = Nat.ofDigitChars 10 ds 0 * 10 ^ zeros
  length : (Text.ofNat n).length = ds.length + zeros
  least : 10 ^ (ds.length - 1) ≤ Nat.ofDigitChars 10 ds 0

theorem ofDigitChars_append_zeros (ds : Text) (k : Nat) :
    Nat.ofDigitChars 10 (ds ++ List.replicate k '0') 0 = Nat.ofDigitChars 10 ds 0 * 10 ^ k := by
  rw [Nat.ofDigitChars_append, Nat.ofDigitChars_replicate_zero, Nat.mul_comm]

theorem digits_ofNat (n : Nat) : Digits (Text.ofNat n) := fun _ hc =>
  Nat.isDigit_of_mem_toDigits (by decide) (by decide) hc

theorem pow_le_of_length {n : Nat} (positive : n ≠ 0) : 10 ^ ((Text.ofNat n).length - 1) ≤ n := by
  rcases Nat.eq_zero_or_pos ((Text.ofNat n).length - 1) with single | several
  · rw [single]
    exact Nat.pos_of_ne_zero positive
  · have longer : ¬ (Text.ofNat n).length ≤ (Text.ofNat n).length - 1 := by omega
    exact Nat.le_of_not_lt fun below =>
      longer ((Nat.length_toDigits_le_iff (by decide) several).2 below)

theorem exists_dropEnd_append (c : Char) (t : Text) :
    ∃ k, t = Text.dropEnd (· = c) t ++ List.replicate k c := by
  generalize reversed : t.reverse = r
  have dropped : r.takeWhile (· = c) = List.replicate (r.takeWhile (· = c)).length c := by
    refine List.eq_replicate_iff.2 ⟨rfl, fun d hd => ?_⟩
    have := List.all_eq_true.1 (List.all_takeWhile (p := (· = c)) (l := r)) d hd
    simpa using this
  refine ⟨(r.takeWhile (· = c)).length, ?_⟩
  calc t = (r.takeWhile (· = c) ++ r.dropWhile (· = c)).reverse := by
        rw [List.takeWhile_append_dropWhile, ← reversed, List.reverse_reverse]
    _ = _ := by
        rw [List.reverse_append, dropped, List.reverse_replicate, List.length_replicate, Text.dropEnd,
          reversed]

theorem exists_significant {n : Nat} (positive : n ≠ 0) :
    ∃ zeros, Significant n (Text.dropEnd (· = '0') (Text.ofNat n)) zeros := by
  obtain ⟨k, split⟩ := exists_dropEnd_append '0' (Text.ofNat n)
  generalize Text.dropEnd (· = '0') (Text.ofNat n) = ds at split ⊢
  have value : n = Nat.ofDigitChars 10 ds 0 * 10 ^ k := by
    calc n = Nat.ofDigitChars 10 (Text.ofNat n) 0 := Nat.ofDigitChars_ten_toDigits.symm
      _ = _ := by rw [split, ofDigitChars_append_zeros]
  have length : (Text.ofNat n).length = ds.length + k := by
    rw [split, List.length_append, List.length_replicate]
  have digits : Digits ds := by
    intro c hc
    refine digits_ofNat n c ?_
    rw [split]
    exact List.mem_append_left _ hc
  have nonempty : ds ≠ [] := by
    rintro rfl
    exact positive (value.trans (Nat.zero_mul _))
  have least : 10 ^ (ds.length - 1) ≤ Nat.ofDigitChars 10 ds 0 := by
    have some_digit := List.length_pos_of_ne_nil nonempty
    have places : ds.length + k - 1 = ds.length - 1 + k := by omega
    have power := pow_le_of_length positive
    rw [length, places, Nat.pow_add] at power
    exact Nat.le_of_mul_le_mul_right (value ▸ power) (Nat.pow_pos (by decide))
  exact ⟨k, digits, nonempty, value, length, least⟩

/-! ### Positional texts -/

theorem digits_zeros (k : Nat) : Digits (List.replicate k '0') := fun c hc => by
  rw [List.eq_of_mem_replicate hc]
  decide

/-- A positional text has the digits it is made of, perhaps with zeros after them, and a point that puts
the leading digit in its place. -/
theorem readUnsigned_positional {ds : Text} (digits : Digits ds) (nonempty : ds ≠ []) (e : Int) :
    UnsignedNumeral (positional ds e) ∧ ∃ j : Nat,
      readUnsigned (positional ds e)
          = some ⟨Nat.ofDigitChars 10 ds 0 * 10 ^ j, e + 1 - ds.length - j⟩ ∧
        min e 0 ≤ e + 1 - j ∧ e + 1 - ds.length - j ≤ 0 := by
  have some_digit := List.length_pos_of_ne_nil nonempty
  by_cases small : e < 0
  -- A zero stands before the point, and zeros stand between the point and the digits.
  · have fraction : Digits (List.replicate (-e - 1).toNat '0' ++ ds) := (digits_zeros _).append digits
    have zero : Digits ['0'] := by simp [Digits]
    have text : positional ds e = ['0'] ++ '.' :: (List.replicate (-e - 1).toNat '0' ++ ds) :=
      if_pos small
    have value : Nat.ofDigitChars 10 (['0'] ++ (List.replicate (-e - 1).toNat '0' ++ ds)) 0
        = Nat.ofDigitChars 10 ds 0 * 10 ^ 0 := by
      simp [Nat.ofDigitChars_append, Nat.ofDigitChars_cons, Nat.ofDigitChars_replicate_zero]
    rw [text, readUnsigned_pointed zero fraction (by simp), value]
    refine ⟨.pointed (by simp) zero fraction, 0, ?_, by omega, by omega⟩
    simp only [Option.some.injEq, Decimal.mk.injEq, true_and, List.length_append,
      List.length_replicate]
    omega
  · by_cases whole : ds.length ≤ e.toNat + 1
    -- All digits stand before the point, with zeros between them and the point and one after it.
    · have padded : Digits (ds ++ List.replicate (e.toNat + 1 - ds.length) '0') :=
        digits.append (digits_zeros _)
      have zero : Digits ['0'] := by simp [Digits]
      have text : positional ds e
          = (ds ++ List.replicate (e.toNat + 1 - ds.length) '0') ++ '.' :: ['0'] := by
        rw [positional, if_neg small, if_pos whole]
      have value : Nat.ofDigitChars 10 (ds ++ List.replicate (e.toNat + 1 - ds.length) '0' ++ ['0']) 0
          = Nat.ofDigitChars 10 ds 0 * 10 ^ (e.toNat + 1 - ds.length + 1) := by
        rw [List.append_assoc, ← List.replicate_succ', ofDigitChars_append_zeros]
      rw [text, readUnsigned_pointed padded zero (by simp), value]
      refine ⟨.pointed (by simp [nonempty]) padded zero, e.toNat + 1 - ds.length + 1, ?_, by omega,
        by omega⟩
      simp only [Option.some.injEq, Decimal.mk.injEq, true_and, List.length_singleton]
      omega
    -- The point stands among the digits.
    · have before : Digits (ds.take (e.toNat + 1)) := fun c hc => digits c (List.mem_of_mem_take hc)
      have after : Digits (ds.drop (e.toNat + 1)) := fun c hc => digits c (List.mem_of_mem_drop hc)
      have text : positional ds e = ds.take (e.toNat + 1) ++ '.' :: ds.drop (e.toNat + 1) := by
        rw [positional, if_neg small, if_neg whole]
      rw [text, readUnsigned_pointed before after (by simpa using nonempty), List.take_append_drop]
      refine ⟨.pointed (by simp [nonempty]) before after, 0, ?_, by omega, by omega⟩
      simp only [Option.some.injEq, Decimal.mk.injEq, Nat.pow_zero, Nat.mul_one, true_and,
        List.length_drop]
      omega

theorem exists_significantDigits {d : Decimal} (positive : d.coefficient ≠ 0) :
    ∃ zeros, Significant d.coefficient (significantDigits d) zeros ∧
      leadingExponent d + 1 - (significantDigits d).length = d.exponent + zeros := by
  obtain ⟨zeros, significant⟩ := exists_significant positive
  refine ⟨zeros, significant, ?_⟩
  rw [leadingExponent, significant.length, significantDigits]
  omega

/-- A positive decimal that is written positionally is read as a decimal that rounds to the same
number. -/
theorem read?_positional {d : Decimal} (positive : d.coefficient ≠ 0)
    (least : layout.least ≤ leadingExponent d) (negative : Bool) :
    UnsignedNumeral (positional (significantDigits d) (leadingExponent d)) ∧
      read? (signed negative (positional (significantDigits d) (leadingExponent d)))
        = some (nearest negative d.num d.den) := by
  obtain ⟨zeros, ⟨digits, nonempty, value, -, leading⟩, last⟩ := exists_significantDigits positive
  obtain ⟨numeral, j, read, lower, upper⟩ :=
    readUnsigned_positional digits nonempty (leadingExponent d)
  refine ⟨numeral, ?_⟩
  rw [read?_signed numeral.pointedText, read, Option.map_some]
  have least' : -4 ≤ leadingExponent d := least
  generalize significantDigits d = ds at *
  generalize leadingExponent d = e at *
  have leading' : 10 ^ (ds.length - 1) ≤ Nat.ofDigitChars 10 ds 0 * 10 ^ j :=
    Nat.le_trans leading (Nat.le_mul_of_pos_right _ (Nat.pow_pos (by decide)))
  have nonzero : Nat.ofDigitChars 10 ds 0 * 10 ^ j ≠ 0 := by
    have : 0 < 10 ^ (ds.length - 1) := Nat.pow_pos (by decide)
    omega
  have places : ds.length - 1 ≤ (Nat.ofDigitChars 10 ds 0 * 10 ^ j).log2 := by
    rw [Nat.le_log2 nonzero]
    exact Nat.le_trans (Nat.pow_le_pow_left (by decide) _) leading'
  have moderate : Moderate ⟨Nat.ofDigitChars 10 ds 0 * 10 ^ j, e + 1 - ds.length - j⟩ :=
    ⟨nonzero, by simp only; omega, by simp only; omega⟩
  have rounded := nearest_zeros negative (Nat.ofDigitChars 10 ds 0) j (e + 1 - ds.length - j)
  have rounded' := nearest_zeros negative (Nat.ofDigitChars 10 ds 0) zeros d.exponent
  rw [moderate.toFloat_eq, rounded, last, Int.sub_add_cancel, ← rounded', ← value]

/-- The shortest decimal of a magnitude that is not zero is not zero. -/
theorem shortest_ne_zero {a : Magnitude} (nonzero : a.mantissa ≠ 0) :
    (shortest a).coefficient ≠ 0 := by
  intro zero
  have low := (around_shortest a).low
  have positive : 0 < (shortest a).den * 2 ^ a.shift :=
    Nat.mul_pos (den_pos _) (Nat.two_pow_pos _)
  have least := Nat.le_mul_of_pos_left ((shortest a).den * 2 ^ a.shift) (Nat.pos_of_ne_zero nonzero)
  have num_zero : (shortest a).num = 0 := by rw [num, zero, Nat.zero_mul]
  simp only [num_zero, Nat.zero_mul] at low
  split at low <;> omega

theorem mem_exponential (width : Nat) (ds : Text) (e : Int) : 'e' ∈ exponential width ds e := by
  simp [exponential]

/-- A finite number other than zero whose text has no exponent is read back from the text. -/
theorem read?_write {v : Float} {negative : Bool} {a : Magnitude}
    (decoded : decode v = .finite negative a) (nonzero : a.mantissa ≠ 0) (plain : 'e' ∉ write v) :
    ∃ t, UnsignedNumeral t ∧ write v = signed negative t ∧ read? (write v) = some v := by
  have text : write v = signed negative (layout.decimal (shortest a)) := by
    simp only [write, decoded, Layout.magnitude, if_neg nonzero]
  rw [text] at plain ⊢
  simp only [Layout.decimal] at plain ⊢
  split at plain
  · next inside =>
    simp only [Bool.and_eq_true, decide_eq_true_eq] at inside
    obtain ⟨numeral, read⟩ := read?_positional (shortest_ne_zero nonzero) inside.1 negative
    rw [if_pos (by simpa using inside)]
    refine ⟨_, numeral, rfl, read.trans ?_⟩
    rw [(around_shortest a).nearest_eq decoded (den_pos _)]
  · refine absurd ?_ plain
    cases negative with
    | false => exact mem_exponential _ _ _
    | true => exact List.mem_cons_of_mem _ (mem_exponential _ _ _)

end Decimal

open Binary64

/-- Both zeros are shown as the digit zero. -/
theorem resultText_zero {v : Float} {negative : Bool} {a : Magnitude}
    (decoded : decode v = .finite negative a) (zero : a.mantissa = 0) : resultText v = ['0'] := by
  have quanta : a.quanta = 0 := by rw [Magnitude.quanta, zero, Nat.zero_mul]
  have integer : integer? v = some 0 := by
    simp only [integer?, decoded, quanta, Nat.zero_mod, Nat.zero_div, if_true]
    cases negative <;> rfl
  rw [resultText, integer]
  rfl

/-- A result other than zero is shown as the number is written, or as a whole number if it is small. -/
theorem resultText_cases {v : Float} {negative : Bool} {a : Magnitude}
    (decoded : decode v = .finite negative a) (nonzero : a.mantissa ≠ 0) :
    resultText v = Decimal.write v ∨ ∃ n, n ≠ 0 ∧ n < 10 ^ 15 ∧ n * 2 ^ 1074 = a.quanta ∧
      resultText v = Decimal.signed negative (Text.ofNat n) := by
  have integer : integer? v = if a.quanta % 2 ^ 1074 = 0 then
      some (if negative then -((a.quanta / 2 ^ 1074 : Nat) : Int) else (a.quanta / 2 ^ 1074 : Nat) : Int)
      else none := by
    rw [integer?, decoded]
  by_cases whole : a.quanta % 2 ^ 1074 = 0
  · have quanta : a.quanta / 2 ^ 1074 * 2 ^ 1074 = a.quanta :=
      Nat.div_mul_cancel (Nat.dvd_of_mod_eq_zero whole)
    have some_quantum : a.quanta ≠ 0 :=
      Nat.mul_ne_zero nonzero (Nat.ne_of_gt (Nat.two_pow_pos a.shift))
    have positive : a.quanta / 2 ^ 1074 ≠ 0 := left_ne_zero_of_mul (quanta ▸ some_quantum)
    rw [if_pos whole] at integer
    generalize a.quanta / 2 ^ 1074 = n at *
    have size : (if negative then -(n : Int) else n).natAbs = n := by
      split <;> omega
    have text : Text.ofInt (if negative then -(n : Int) else n)
        = Decimal.signed negative (Text.ofNat n) := by
      cases negative with
      | false => rfl
      | true =>
        have below : -(n : Int) < 0 := by omega
        simp only [Text.ofInt, Decimal.signed, if_true, if_pos below, Int.natAbs_neg,
          Int.natAbs_natCast]
    rw [resultText, integer]
    simp only [size]
    split
    · next small => exact .inr ⟨n, positive, small, quanta, text⟩
    · exact .inl rfl
  · rw [if_neg whole] at integer
    rw [resultText, integer]
    exact .inl rfl

/-- A finite result other than zero without an exponent is read back as the number it is the text
of. -/
theorem read?_resultText {v : Float} {negative : Bool} {a : Magnitude}
    (decoded : decode v = .finite negative a) (nonzero : a.mantissa ≠ 0)
    (plain : 'e' ∉ resultText v) :
    ∃ t, UnsignedNumeral t ∧ resultText v = Decimal.signed negative t ∧
      Decimal.read? (resultText v) = some v := by
  rcases resultText_cases decoded nonzero with text | ⟨n, positive, -, quanta, text⟩
  · rw [text] at plain ⊢
    exact Decimal.read?_write decoded nonzero plain
  · have digits := Decimal.digits_ofNat n
    have nonempty : Text.ofNat n ≠ [] := Nat.toDigits_ne_nil
    have numeral : UnsignedNumeral (Text.ofNat n) := .whole nonempty digits
    refine ⟨Text.ofNat n, numeral, text, ?_⟩
    have value : Nat.ofDigitChars 10 (Text.ofNat n) 0 = n := Nat.ofDigitChars_ten_toDigits
    have ratio : Around a (Decimal.num ⟨n, 0⟩) (Decimal.den ⟨n, 0⟩) := by
      refine around_of_eq ?_ (Decimal.den_pos _)
      simp only [Decimal.num, Decimal.den, Int.toNat_zero, Int.neg_zero, Nat.pow_zero, Nat.mul_one,
        quanta]
    rw [text, Decimal.read?_signed numeral.pointedText, Decimal.readUnsigned_whole digits nonempty,
      value, Option.map_some, (Decimal.Moderate.whole positive).toFloat_eq,
      ratio.nearest_eq decoded (Decimal.den_pos _)]

end DeskCalc
