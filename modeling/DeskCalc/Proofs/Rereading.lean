import Mathlib
import DeskCalc.Proofs.Chaining
import DeskCalc.Proofs.Positional

/-! Evaluating the text of a result.  A result without an exponent is an expression of one literal,
whose value is the result.  Any other text has a letter that is not the last character, so that it is
refused and never cut down to another number.  That is why the equals key has nothing to do when it
is pressed again. -/

namespace DeskCalc

open Binary64

namespace Binary64

open Float.Model Float.Model.UnpackedFloat

/-! ### Numbers equal to themselves -/

theorem unpack_ne_notANumber {bits : Nat} (finite : bits < infinityBits) (negative : Bool) :
    UnpackedFloat.unpack .binary64 (word negative bits) ≠ .notANumber := by
  intro nan
  have small : bits < 2 ^ 63 := by
    unfold infinityBits at finite
    omega
  have value := toNat_word small negative
  simp only [UnpackedFloat.unpack] at nan
  split at nan
  · next exponent =>
    have high := congrArg BitVec.toNat exponent
    have ones : (-BitVec.ofNat Format.binary64.exponentBits 1).toNat = 2047 := by decide
    simp only [unpackExponent_def, BitVec.extractLsb'_toNat, value, ones,
      Nat.shiftRight_eq_div_pow] at high
    unfold infinityBits at finite
    split at high <;> omega
  · split at nan
    · split at nan <;> exact absurd nan (by simp)
    · exact absurd nan (by simp)

theorem compare_self {u : UnpackedFloat} (number : u ≠ .notANumber) : u.compare u = some .eq := by
  cases u with
  | notANumber => exact absurd rfl number
  | infinity s => cases s <;> rfl
  | zero s => rfl
  | finite s m e positive => cases s <;> simp [UnpackedFloat.compare]

theorem beq_self_of_decode {v : Float} {negative : Bool} {a : Magnitude}
    (decoded : decode v = .finite negative a) : (v == v) = true := by
  obtain ⟨bits, -, finite⟩ := eq_ofSignBits_of_decode decoded
  have number : v.toModel.unpack ≠ .notANumber := by
    rw [bits, unpack_ofSignBits]
    exact unpack_ne_notANumber finite negative
  show (v.toModel.unpack.compare v.toModel.unpack == some .eq) = true
  rw [compare_self number]
  rfl

theorem Magnitude.value_eq_zero_iff {a : Magnitude} : a.value = 0 ↔ a.mantissa = 0 := by
  have unit : (2 : ℚ) ^ 1074 ≠ 0 := pow_ne_zero _ two_ne_zero
  have gap : 2 ^ a.shift ≠ 0 := Nat.ne_of_gt (Nat.two_pow_pos _)
  rw [value, div_eq_zero_iff, or_iff_left unit, Nat.cast_eq_zero, quanta, Nat.mul_eq_zero,
    or_iff_left gap]

theorem Magnitude.value_of_whole {a : Magnitude} {n : Nat} (whole : n * 2 ^ 1074 = a.quanta) :
    a.value = n := by
  have unit : (2 : ℚ) ^ 1074 ≠ 0 := pow_ne_zero _ two_ne_zero
  rw [value, div_eq_iff unit, ← whole, Nat.cast_mul]
  exact congrArg _ (Decimal.cast_two_pow 1074)

end Binary64

/-- Zero, and the finite numbers of either sign from `0.0001` up to `1e16`. -/
def PlainRange (v : Float) : Prop :=
  ∃ negative a, decode v = .finite negative a ∧
    (a.value = 0 ∨ 1 / 10000 ≤ a.value ∧ a.value < 10 ^ 16)

/-! ### The two notations of a result -/

section Notation

variable {v : Float} {negative : Bool} {a : Magnitude}

theorem write_eq (decoded : decode v = .finite negative a) (nonzero : a.mantissa ≠ 0) :
    Decimal.write v = Decimal.signed negative
      (if 1 / 10000 ≤ a.value ∧ a.value < 10 ^ 16 then
        Decimal.positional (Decimal.significantDigits (Decimal.shortest a))
          (Decimal.leadingExponent (Decimal.shortest a))
      else Decimal.exponential 2 (Decimal.significantDigits (Decimal.shortest a))
          (Decimal.leadingExponent (Decimal.shortest a))) := by
  obtain ⟨-, canonical, finite⟩ := eq_ofSignBits_of_decode decoded
  have range := Decimal.layout_positional_iff canonical finite nonzero
  have bounds : (10 : ℚ) ^ (-4 : ℤ) = 1 / 10000 ∧ (10 : ℚ) ^ (16 : ℤ) = 10 ^ 16 := by norm_num
  rw [bounds.1, bounds.2] at range
  simp only [Decimal.write, decoded, Decimal.Layout.magnitude, if_neg nonzero, Decimal.Layout.decimal,
    Bool.and_eq_true, decide_eq_true_eq, range]
  rfl

/-- A result in the plain range is an unsigned numeral that ends with a digit, after a sign. -/
theorem resultText_inside (decoded : decode v = .finite negative a) (nonzero : a.mantissa ≠ 0)
    (range : 1 / 10000 ≤ a.value ∧ a.value < 10 ^ 16) :
    ∃ t c, UnsignedNumeral t ∧ resultText v = Decimal.signed negative t ∧ t.getLast? = some c ∧
      c.isDigit := by
  rcases resultText_cases decoded nonzero with text | ⟨n, -, -, -, text⟩
  · have digits := Decimal.shortest_ne_zero nonzero
    obtain ⟨-, canonical, finite⟩ := eq_ofSignBits_of_decode decoded
    have least : Decimal.layout.least ≤ Decimal.leadingExponent (Decimal.shortest a) := by
      refine ((Decimal.layout_positional_iff canonical finite nonzero).2 ?_).1
      norm_num at range ⊢
      exact range
    obtain ⟨numeral, -⟩ := Decimal.read?_positional digits least negative
    obtain ⟨zeros, significant, -⟩ := Decimal.exists_significantDigits digits
    obtain ⟨c, last, digit⟩ := Decimal.exists_last_positional significant.digits
      significant.nonempty (Decimal.leadingExponent (Decimal.shortest a))
    rw [text, write_eq decoded nonzero, if_pos range]
    exact ⟨_, c, numeral, rfl, last, digit⟩
  · have digits := Decimal.digits_ofNat n
    have nonempty : Text.ofNat n ≠ [] := Nat.toDigits_ne_nil
    obtain ⟨c, last⟩ := Option.isSome_iff_exists.1 (List.getLast?_isSome.2 nonempty)
    exact ⟨_, c, .whole nonempty digits, text, last, digits c (List.mem_of_getLast? last)⟩

/-- A result outside the plain range has a letter before the digits of its exponent. -/
theorem resultText_outside (decoded : decode v = .finite negative a) (nonzero : a.mantissa ≠ 0)
    (range : ¬ (1 / 10000 ≤ a.value ∧ a.value < 10 ^ 16)) :
    'e' ∈ Expression.stripPending (resultText v) := by
  have text : resultText v = Decimal.write v := by
    refine (resultText_cases decoded nonzero).resolve_right ?_
    rintro ⟨n, positive, small, whole, -⟩
    have one : (1 : ℚ) ≤ n := by exact_mod_cast Nat.pos_of_ne_zero positive
    have bound : (n : ℚ) < 10 ^ 15 := by exact_mod_cast small
    apply range
    rw [Magnitude.value_of_whole whole]
    constructor <;> linarith
  obtain ⟨mantissa, exponent, c, split, last, digit⟩ := Decimal.exists_exponential_eq 2
    (Decimal.significantDigits (Decimal.shortest a)) (Decimal.leadingExponent (Decimal.shortest a))
  have nonempty : exponent ≠ [] := by
    rintro rfl
    exact absurd last (by simp)
  obtain ⟨front, whole⟩ : ∃ front, resultText v = front ++ 'e' :: exponent := by
    rw [text, write_eq decoded nonzero, if_neg range, split]
    cases negative with
    | false => exact ⟨_, rfl⟩
    | true => exact ⟨'-' :: mantissa, rfl⟩
  have ends : (resultText v).getLast? = some c := by
    rw [whole, List.getLast?_append, List.getLast?_cons_of_ne_nil nonempty, last, Option.some_or]
  rw [Expression.stripPending_of_getLast? ends digit, whole]
  simp

end Notation

/-! ### Expressions that are refused -/

theorem calculate_of_foreign {e : Text} {c : Char} (inside : c ∈ Expression.stripPending e)
    (foreign : ¬ KeypadChar c) : ∃ p, calculate e = .error (.build (.parse p)) := by
  rcases calculate_cases e with ⟨t, v, built, -, -⟩ | ⟨p, -, calculated⟩
  · obtain ⟨-, tokens, ls, scanned, -, -⟩ := Expression.build_eq_ok_iff.1 built
    obtain ⟨row, text⟩ := Token.tokenize_eq_ok_iff.1 scanned
    rw [← text] at inside
    exact absurd (row.keypad c inside) foreign
  · exact ⟨p, calculated⟩

theorem exists_build_iff_calculate {e : Text} :
    (∃ t, Expression.build e = .ok t) ↔ ∃ v, calculate e = .ok v := by
  rcases calculate_cases e with ⟨t, v, built, -, calculated⟩ | ⟨p, built, calculated⟩
  · simp [built, calculated]
  · simp [built, calculated]

/-! ### Results that are evaluated -/

theorem calculate_resultText_inside {v : Float} (plain : PlainRange v) :
    ∃ w, calculate (resultText v) = .ok w ∧ (w = v ∨ v = zero true ∧ w = zero false) := by
  obtain ⟨negative, a, decoded, range⟩ := plain
  by_cases empty : a.mantissa = 0
  · have calculated : calculate ['0'] = .ok (zero false) := by decide +kernel
    rw [resultText_zero decoded empty, eq_zero_of_decode decoded empty]
    refine ⟨_, calculated, ?_⟩
    cases negative with
    | false => exact .inl rfl
    | true => exact .inr ⟨rfl, rfl⟩
  · have inside := range.resolve_left fun none => empty (Magnitude.value_eq_zero_iff.1 none)
    obtain ⟨t, c, numeral, text, last, digit⟩ := resultText_inside decoded empty inside
    have raw : RawLiteral (resultText v) := text ▸ (numeral.signed negative).rawLiteral
    have letterless : 'e' ∉ resultText v := fun letter =>
      absurd (raw.keypad 'e' letter) (by decide)
    obtain ⟨-, -, -, read⟩ := read?_resultText decoded empty letterless
    have ends : (resultText v).getLast? = some c := by
      rw [text]
      cases negative with
      | false => exact last
      | true => exact (List.getLast?_cons_of_ne_nil numeral.ne_nil).trans last
    exact ⟨v, calculate_literal raw read ends digit, .inl rfl⟩

theorem calculate_resultText_outside {v : Float} (outside : ¬ PlainRange v) :
    ∃ p, calculate (resultText v) = .error (.build (.parse p)) := by
  cases decoded : decode v with
  | nan =>
    have text : resultText v = "nan".toList := by
      simp only [resultText, integer?, decoded, Decimal.write]
    rw [text]
    exact calculate_of_foreign (c := 'n') (by decide) (by decide)
  | infinite negative =>
    have text : resultText v = Decimal.signed negative "inf".toList := by
      simp only [resultText, integer?, decoded, Decimal.write]
    rw [text]
    refine calculate_of_foreign (c := 'i') ?_ (by decide)
    cases negative <;> decide
  | finite negative a =>
    by_cases empty : a.mantissa = 0
    · exact absurd ⟨negative, a, decoded, .inl (Magnitude.value_eq_zero_iff.2 empty)⟩ outside
    · have range : ¬ (1 / 10000 ≤ a.value ∧ a.value < 10 ^ 16) := fun inside =>
        outside ⟨negative, a, decoded, .inr inside⟩
      exact calculate_of_foreign (resultText_outside decoded empty range) (by decide)

namespace Display

theorem equals_of_value {d : Display} {v : Float} (h : calculate d.text = .ok v) :
    d.equals = ⟨resultText v⟩ :=
  Except.ok.inj (press_equals h).2

theorem equals_of_error {d : Display} {p : ParseError}
    (h : calculate d.text = .error (.build (.parse p))) : d.equals = d := by
  rcases calculate_cases d.text with ⟨_, _, _, _, calculated⟩ | ⟨q, built, -⟩
  · exact absurd (h.symm.trans calculated) (by simp)
  · rw [equals, outcome, compute_of_build_error built]
    rfl

/-- The equals key leaves its own result as it is. -/
theorem equals_equals (d : Display) : d.equals.equals = d.equals := by
  rcases calculate_cases d.text with ⟨_, v, _, _, calculated⟩ | ⟨p, _, calculated⟩
  · rw [equals_of_value calculated]
    by_cases plain : PlainRange v
    · obtain ⟨w, again, same⟩ := calculate_resultText_inside plain
      have shown : (Display.mk (resultText v)).equals = ⟨resultText w⟩ := equals_of_value again
      rw [shown]
      rcases same with rfl | ⟨rfl, rfl⟩
      · rfl
      · decide +kernel
    · obtain ⟨p, refused⟩ := calculate_resultText_outside plain
      exact equals_of_error refused
  · rw [equals_of_error calculated, equals_of_error calculated]

end Display

/-- The text of a result is an expression exactly when the result is zero or lies from `0.0001` up to
`1e16`, and its value is then the result, of which a negative zero loses its sign.  The text of any
other result is refused for what it says.  On the display, the result of the equals key stays when
the key is pressed again. -/
theorem results_are_reread (v : Float) :
    ((∃ t, Expression.build (resultText v) = .ok t) ↔ PlainRange v) ∧
      (PlainRange v → ∃ w, calculate (resultText v) = .ok w ∧ (w == v) = true ∧
        (w = v ∨ v = zero true ∧ w = zero false)) ∧
      (¬ PlainRange v → ∃ p, calculate (resultText v) = .error (.build (.parse p))) ∧
      ∀ d : Display, d.equals.equals = d.equals := by
  refine ⟨⟨fun built => ?_, fun plain => ?_⟩, fun plain => ?_, calculate_resultText_outside,
    Display.equals_equals⟩
  · by_contra outside
    obtain ⟨w, calculated⟩ := exists_build_iff_calculate.1 built
    obtain ⟨p, refused⟩ := calculate_resultText_outside outside
    exact absurd (calculated.symm.trans refused) (by simp)
  · obtain ⟨w, calculated, -⟩ := calculate_resultText_inside plain
    exact exists_build_iff_calculate.2 ⟨w, calculated⟩
  · obtain ⟨w, calculated, same⟩ := calculate_resultText_inside plain
    refine ⟨w, calculated, ?_, same⟩
    rcases same with rfl | ⟨rfl, rfl⟩
    · obtain ⟨negative, a, decoded, -⟩ := plain
      exact beq_self_of_decode decoded
    · decide +kernel

end DeskCalc
