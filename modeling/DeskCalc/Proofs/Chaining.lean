import DeskCalc.Proofs.Negation
import DeskCalc.Proofs.Typing

/-! Going on from a result.  After the equals key an operator and a number extend the text of the
result, and the next result is that of the operator on the number the text was read back as.  A
result that is shown as zero is the exception: the operator takes the place of the zero, so that only
a minus sign leaves an expression, a negative number. -/

namespace DeskCalc

open Binary64

/-! ### Expressions of one operator -/

/-- The text of a row of tokens that ends with a digit has the value of the tree of their labels. -/
theorem calculate_row {tokens : List Token} (row : Token.Row tokens) {ls : List Label} {v : Float}
    (read : Expression.labels tokens = .ok ls) (value : (Tree.ofLabels ls).value = .ok v) {c : Char}
    (last : (Token.textOf tokens).getLast? = some c) (digit : c.isDigit) :
    calculate (Token.textOf tokens) = .ok v := by
  have scanned : tokenize (Expression.stripPending (Token.textOf tokens)) = .ok tokens := by
    rw [Expression.stripPending_of_getLast? last digit]
    exact Token.tokenize_eq_ok_iff.2 ⟨row, rfl⟩
  have built : Expression.build (Token.textOf tokens) = .ok (Tree.ofLabels ls) :=
    Expression.build_eq_ok_iff.2 ⟨row.textOf_ne_nil, tokens, ls, scanned, read, rfl⟩
  simp only [calculate, built, Tree.evaluate_eq_value, value]

theorem calculate_literal {t : Text} {v : Float} (raw : RawLiteral t)
    (read : Decimal.read? t = some v) {c : Char} (last : t.getLast? = some c) (digit : c.isDigit) :
    calculate t = .ok v := by
  have text : Token.textOf [.literal t] = t := by simp [Token.textOf, Token.text]
  have label : Expression.labels [.literal t] = .ok [.number v] := by
    simp [Expression.labels, Expression.label, Expression.parseLiteral, read]
  rw [← text] at last
  exact text ▸ calculate_row (.literal raw) label rfl last digit

theorem calculate_operation {t u : Text} {v w : Float} (left : RawLiteral t) (right : RawLiteral u)
    (leftRead : Decimal.read? t = some v) (rightRead : Decimal.read? u = some w) (o : Operator)
    {c : Char} (last : u.getLast? = some c) (digit : c.isDigit) :
    calculate (t ++ o.symbol :: u) = .ok (o.apply v w) := by
  have text : Token.textOf [.literal t, .operator o, .literal u] = t ++ o.symbol :: u := by
    simp [Token.textOf, Token.text]
  have label : Expression.labels [.literal t, .operator o, .literal u]
      = .ok [.number v, .operator o, .number w] := by
    simp [Expression.labels, Expression.label, Expression.parseLiteral, leftRead, rightRead]
  have tree : Tree.ofLabels [.number v, .operator o, .number w]
      = .node (.operator o) (.node (.number v) .empty .empty) (.node (.number w) .empty .empty) := by
    cases o <;> rfl
  have value : (Tree.ofLabels [.number v, .operator o, .number w]).value = .ok (o.apply v w) := by
    rw [tree]
    exact Tree.value_operator rfl rfl
  have ends : (t ++ o.symbol :: u).getLast? = some c := by
    rw [List.getLast?_append, List.getLast?_cons_of_ne_nil right.ne_nil, last, Option.some_or]
  rw [← text] at ends
  exact text ▸ calculate_row (.operation left o (.literal right)) label value ends digit

/-- An operator other than minus does not begin an expression. -/
theorem compute_leading_operator {u : Text} {c : Char} {o : Operator} (notSign : o ≠ .minus)
    (last : u.getLast? = some c) (digit : c.isDigit) :
    compute (o.symbol :: u) = .failure (o.symbol :: u)
      (ParseError.missingOperand o.symbol 0 (o.symbol :: u)).message := by
  have nonempty : u ≠ [] := by
    rintro rfl
    exact absurd last (by simp)
  have ends : (o.symbol :: u).getLast? = some c := by
    rw [List.getLast?_cons_of_ne_nil nonempty, last]
  have operator : continuesLiteral [] o.symbol = false := by
    cases o with
    | minus => exact absurd rfl notSign
    | plus | div | times => decide
  have scanned : tokenize (o.symbol :: u)
      = .error (.missingOperand o.symbol 0 (o.symbol :: u)) := by
    rw [tokenize, scan, if_neg (by simp [operator]), Operator.ofSymbol?_symbol]
    rfl
  have built : Expression.build (o.symbol :: u)
      = .error (.parse (.missingOperand o.symbol 0 (o.symbol :: u))) := by
    refine Expression.build_eq_error_iff.2 ⟨_, rfl, .inr (.inl ⟨by simp, ?_⟩)⟩
    rwa [Expression.stripPending_of_getLast? ends digit]
  exact compute_of_build_error built

/-! ### Whole numbers as they are typed -/

/-- The digits of a whole number, of which the first is not zero. -/
structure WholeNumber (n : Text) : Prop where
  nonempty : n ≠ []
  digits : Digits n
  first : n.head? ≠ some '0'

namespace WholeNumber

theorem getLast?_digit {n : Text} (h : WholeNumber n) : ∃ c, n.getLast? = some c ∧ c.isDigit := by
  refine ⟨n.getLast h.nonempty, List.getLast?_eq_some_getLast h.nonempty, ?_⟩
  exact h.digits _ (List.getLast_mem h.nonempty)

theorem ofDigitChars_ne_zero {n : Text} (h : WholeNumber n) : Nat.ofDigitChars 10 n 0 ≠ 0 := by
  cases n with
  | nil => exact absurd rfl h.nonempty
  | cons c rest =>
    have digit := Decimal.toNat_of_isDigit (h.digits c (by simp))
    have notZero : c.toNat ≠ 48 := by
      intro zero
      have : c = '0' := Char.toNat_inj.1 zero
      exact h.first (by simp [this])
    rw [Nat.ofDigitChars_cons, Nat.ofDigitChars_eq_ofDigitChars_zero]
    have leading : 0 < 10 * 0 + (c.toNat - '0'.toNat) := by
      show 0 < 10 * 0 + (c.toNat - 48)
      omega
    have := Nat.mul_pos (Nat.pow_pos (n := rest.length) (show 0 < 10 by decide)) leading
    omega

/-- Both a whole number and its negative are read. -/
theorem read {n : Text} (h : WholeNumber n) (negative : Bool) :
    Decimal.read? (Decimal.signed negative n)
      = some (Decimal.toFloat negative ⟨Nat.ofDigitChars 10 n 0, 0⟩) := by
  rw [Decimal.read?_signed h.digits.pointed, Decimal.readUnsigned_whole h.digits h.nonempty,
    Option.map_some]

/-- All of an operator and a whole number is kept. -/
theorem kept {n : Text} (h : WholeNumber n) (o : Operator) (previous : Option Char) :
    DeskCalc.kept previous (o.symbol :: n) = o.symbol :: n := by
  cases n with
  | nil => exact absurd rfl h.nonempty
  | cons c rest =>
    have notZero : c ≠ '0' := fun zero => h.first (by simp [zero])
    have inside : beginsLiteral (some c) = false := by
      simp [beginsLiteral, Operator.ofSymbol?_digit (h.digits c (by simp))]
    have digits : Pointed rest := fun d hd => .inl (h.digits d (by simp [hd]))
    have whole := kept_pointed digits .nil inside
    rw [List.append_nil, DeskCalc.kept, List.append_nil] at whole
    rw [kept_cons_of_ne o.symbol_ne_zero, kept_cons_of_ne notZero, whole]

end WholeNumber

/-! ### Results that are extended -/

/-- Only a zero is shown as zero. -/
theorem resultText_ne_zeroText {v : Float} {negative : Bool} {a : Magnitude}
    (decoded : decode v = .finite negative a) (nonzero : a.mantissa ≠ 0)
    (plain : 'e' ∉ resultText v) : resultText v ≠ Display.zeroText := by
  intro text
  obtain ⟨-, -, -, read⟩ := read?_resultText decoded nonzero plain
  have readZero : Decimal.read? Display.zeroText = some (zero false) := by decide +kernel
  rw [text, readZero] at read
  obtain rfl := Option.some.inj read
  have decodedZero : decode (zero false) = .finite false ⟨0, 0⟩ := by decide +kernel
  obtain ⟨-, rfl⟩ := Value.finite.inj (decodedZero.symm.trans decoded)
  exact nonzero rfl

namespace Display

theorem Typeable.of_rawLiteral {t : Text} (raw : RawLiteral t) (ne : t ≠ zeroText) : Typeable t :=
  ⟨ne, fun c last => raw.keypad c (List.mem_of_getLast? last)⟩

/-- A result without an exponent can be typed on. -/
theorem typeable_result {v : Float} {negative : Bool} {a : Magnitude}
    (decoded : decode v = .finite negative a) (plain : 'e' ∉ resultText v) :
    Typeable (stem ⟨resultText v⟩) ∧ ofText (stem ⟨resultText v⟩) = ⟨resultText v⟩ := by
  by_cases empty : a.mantissa = 0
  · rw [resultText_zero decoded empty]
    exact ⟨.nil, rfl⟩
  · have notZero := resultText_ne_zeroText decoded empty plain
    obtain ⟨t, numeral, text, -⟩ := read?_resultText decoded empty plain
    have raw : RawLiteral (resultText v) := text ▸ (numeral.signed negative).rawLiteral
    rw [stem, if_neg notZero]
    exact ⟨.of_rawLiteral raw notZero, by simp [ofText, raw.ne_nil]⟩

/-- The text of a result with an operator and a whole number after it has the value of the operator. -/
theorem calculate_extended {v : Float} {negative : Bool} {a : Magnitude} {n : Text} {o : Operator}
    (decoded : decode v = .finite negative a) (plain : 'e' ∉ resultText v) (whole : WholeNumber n)
    (allowed : resultText v ≠ zeroText ∨ o = .minus) :
    calculate (stem ⟨resultText v⟩ ++ o.symbol :: n)
      = .ok (o.apply v (Decimal.toFloat false ⟨Nat.ofDigitChars 10 n 0, 0⟩)) := by
  obtain ⟨c, last, digit⟩ := whole.getLast?_digit
  have numeral : UnsignedNumeral n := .whole whole.nonempty whole.digits
  by_cases empty : a.mantissa = 0
  -- What is left of the zero and the operator is the sign of the number.
  · have text := resultText_zero decoded empty
    obtain rfl : o = .minus := allowed.resolve_left fun ne => ne text
    have ends : ('-' :: n).getLast? = some c := by
      rw [List.getLast?_cons_of_ne_nil whole.nonempty, last]
    have value : Operator.minus.apply v (Decimal.toFloat false ⟨Nat.ofDigitChars 10 n 0, 0⟩)
        = Decimal.toFloat true ⟨Nat.ofDigitChars 10 n 0, 0⟩ := by
      rw [eq_zero_of_decode decoded empty, Decimal.toFloat_negative whole.ofDigitChars_ne_zero negative]
      rfl
    rw [text, value]
    exact calculate_literal (Numeral.negative numeral).rawLiteral (whole.read true) ends digit
  · obtain ⟨t, left, text, read⟩ := read?_resultText decoded empty plain
    have stem_eq : stem ⟨resultText v⟩ = resultText v :=
      if_neg (resultText_ne_zeroText decoded empty plain)
    have raw : RawLiteral (resultText v) := text ▸ (left.signed negative).rawLiteral
    rw [stem_eq]
    exact calculate_operation raw (Numeral.unsigned numeral).rawLiteral read (whole.read false) o last
      digit

/-- After a result, an operator and a whole number are appended to the text of the result, and the
equals key shows the value of the operator on the result and the number.  An operator on the zero
display takes the place of the zero: the minus sign makes the number negative, which is the
difference, and with any other operator the left operand is missing. -/
theorem result_extends {d : Display} {v : Float} {negative : Bool} {a : Magnitude} {n : Text}
    (result : d.outcome.result = some v) (decoded : decode v = .finite negative a)
    (plain : 'e' ∉ resultText v) (whole : WholeNumber n) (o : Operator) :
    let e := stem ⟨resultText v⟩ ++ o.symbol :: n
    ∃ w, Decimal.read? n = some w ∧ d.pressAll ('=' :: o.symbol :: n) = .ok ⟨e⟩ ∧
      (resultText v ≠ zeroText ∨ o = .minus →
        outcome ⟨e⟩ = .success e (o.apply v w) ∧
          d.pressAll ('=' :: o.symbol :: n ++ ['=']) = .ok ⟨resultText (o.apply v w)⟩) ∧
      (resultText v = zeroText → o ≠ .minus →
        outcome ⟨e⟩ = .failure e (ParseError.missingOperand o.symbol 0 e).message ∧
          d.pressAll ('=' :: o.symbol :: n ++ ['=']) = .ok ⟨e⟩) := by
  intro e
  obtain ⟨c, last, digit⟩ := whole.getLast?_digit
  obtain ⟨typeable, shown⟩ := typeable_result decoded plain
  have keys : ∀ k ∈ o.symbol :: n, KeypadChar k := by
    intro k hk
    rcases List.mem_cons.1 hk with rfl | hk
    · exact .inr (.inr ⟨o, rfl⟩)
    · exact .inl (whole.digits k hk)
  have typed : d.pressAll ('=' :: o.symbol :: n) = .ok ⟨e⟩ := by
    have rest := pressAll_keypad typeable keys
    rw [whole.kept, shown] at rest
    have text : ofText e = ⟨e⟩ := by simp [ofText, e]
    rw [pressAll, (press_equals (compute_result_iff.1 result)).2, ← text]
    exact rest
  have read := whole.read false
  refine ⟨_, read, typed, fun allowed => ?_, fun zero notSign => ?_⟩
  · have calculated := calculate_extended decoded plain whole allowed
    obtain ⟨outcome, pressed⟩ := press_equals (d := ⟨e⟩) calculated
    refine ⟨outcome, ?_⟩
    rw [pressAll_append typed, pressAll, pressed]
    rfl
  -- Nothing is left in front of the operator.
  · have text : e = o.symbol :: n := by
      simp only [e, zero]
      rfl
    have outcome : outcome ⟨e⟩ = .failure e (ParseError.missingOperand o.symbol 0 e).message := by
      rw [text]
      exact compute_leading_operator notSign last digit
    have equals : (Display.mk e).equals = ⟨e⟩ := by
      rw [Display.equals, outcome]
      rfl
    refine ⟨outcome, ?_⟩
    rw [pressAll_append typed]
    exact congrArg Except.ok equals

theorem result_extends_times :
    let d : Display := ⟨"1-3.5".toList⟩
    let v := nearest true 5 2
    d.outcome.result = some v ∧ (∃ a, decode v = .finite true a) ∧ 'e' ∉ resultText v ∧
      WholeNumber "40".toList ∧
      ∃ w, Decimal.read? "40".toList = some w ∧
        d.pressAll "=x40".toList = .ok ⟨"-2.5x40".toList⟩ ∧
        d.pressAll "=x40=".toList = .ok ⟨resultText (v * w)⟩ := by
  intro d v
  have result : d.outcome.result = some v := by decide +kernel
  have decoded : decode v = .finite true (Magnitude.ofBits (nearestBits 5 2)) := by decide +kernel
  have text : resultText v = "-2.5".toList := by decide +kernel
  have plain : 'e' ∉ resultText v := by
    rw [text]
    decide
  have whole : WholeNumber "40".toList := ⟨by decide, by simp [Digits], by decide⟩
  obtain ⟨w, read, typed, allowed, -⟩ := result_extends result decoded plain whole .times
  have notZero : resultText v ≠ zeroText := by
    rw [text]
    decide
  refine ⟨result, ⟨_, decoded⟩, plain, whole, w, read, ?_, (allowed (.inl notZero)).2⟩
  rw [text] at typed
  exact typed

/-- A result that is shown as zero does not take a plus sign. -/
theorem result_extends_not_from_zero :
    ¬ ∀ (d : Display) (v : Float) (negative : Bool) (a : Magnitude) (n : Text) (o : Operator),
        d.outcome.result = some v → decode v = .finite negative a → 'e' ∉ resultText v →
        WholeNumber n →
        ∃ d' w, d.pressAll ('=' :: o.symbol :: n) = .ok d' ∧ Decimal.read? n = some w ∧
          d'.outcome.error = none ∧ d'.outcome.result = some (o.apply v w) := by
  intro extends_all
  obtain ⟨d', w, typed, -, succeeds, -⟩ := extends_all ⟨"5-5".toList⟩ (Binary64.zero false) false
    ⟨0, 0⟩ "3".toList .plus (by decide +kernel) (by decide +kernel) (by decide +kernel)
    ⟨by decide, by simp [Digits], by decide⟩
  have replaced : ((Display.mk "5-5".toList).pressAll "=+3".toList).toOption
      = some ⟨"+3".toList⟩ := by decide +kernel
  have shown : Except.toOption (.ok d' : Except DisplayError Display) = some ⟨"+3".toList⟩ :=
    typed ▸ replaced
  obtain rfl := Option.some.inj shown
  revert succeeds
  decide +kernel

end Display

end DeskCalc
