import DeskCalc.Proofs.Accepted

/-! Percent and the value of an expression.  Percent reads the whole text as a number, where the equals
key drops a pending character and looks for tokens.  On an expression that was typed on the keypad both
find the same number, if the text is one literal at all, and percent leaves any other expression as it
is. -/

namespace DeskCalc

/-- The text without a minus sign at its start. -/
def withoutSign : Text → Text
  | '-' :: t => t
  | t => t

/-- A text that is one literal, perhaps with the point as its last character: there is no operator in it
but for a minus sign at its start, and at most one point. -/
structure LoneLiteral (t : Text) : Prop where
  noOperator : ∀ o : Operator, o.symbol ∉ withoutSign t
  onePoint : t.count '.' ≤ 1

theorem withoutSign_append {t : Text} (nonempty : t ≠ []) (u : Text) :
    withoutSign (t ++ u) = withoutSign t ++ u := by
  cases t with
  | nil => exact absurd rfl nonempty
  | cons c t =>
    by_cases minus : c = '-'
    · subst minus
      rfl
    · simp [withoutSign, minus]

/-! ### Reading what was typed on the keypad -/

namespace Decimal

theorem plain_of_keypad {c : Char} (key : KeypadChar c) : Plain c := by
  rcases key with digit | rfl | ⟨o, rfl⟩
  · exact plain_of_isDigit digit
  · exact ⟨by decide, by decide, by decide⟩
  · cases o <;> exact ⟨by decide, by decide, by decide⟩

theorem toLower_of_keypad {c : Char} (key : KeypadChar c) : c.toLower = c := by
  rcases key with digit | rfl | ⟨o, rfl⟩
  · exact toLower_of_isDigit digit
  · decide
  · cases o <;> decide

theorem splitSign_sublist (t : Text) : (splitSign t).2.Sublist t := by
  unfold splitSign
  split
  · exact List.sublist_cons_self _ _
  · exact List.sublist_cons_self _ _
  · exact List.Sublist.refl _

theorem splitSign_snd {t : Text} (notPlus : t.head? ≠ some '+') :
    (splitSign t).2 = withoutSign t := by
  cases t with
  | nil => rfl
  | cons c t =>
    have plus : c ≠ '+' := fun same => notPlus (congrArg some same)
    by_cases minus : c = '-'
    · subst minus
      rfl
    · simp [splitSign, withoutSign, minus, plus]

/-- No word for a number and no exponent is typed on the keypad. -/
theorem read?_keypad {t : Text} (keys : ∀ c ∈ t, KeypadChar c) :
    read? t = (readUnsigned (splitSign t).2).map (toFloat (splitSign t).1) := by
  have keys' : ∀ c ∈ (splitSign t).2, KeypadChar c := fun c hc =>
    keys c ((splitSign_sublist t).subset hc)
  have small : (splitSign t).2.map Char.toLower = (splitSign t).2 :=
    List.map_congr_left (fun c hc => toLower_of_keypad (keys' c hc)) |>.trans (List.map_id _)
  have noWord {w : Text} {c : Char} (hc : c ∈ w) (letter : ¬ KeypadChar c) :
      (splitSign t).2 ≠ w := fun same => letter (keys' c (same ▸ hc))
  have notInf := noWord (w := "inf".toList) (c := 'i') (by decide) (by decide)
  have notInfinity := noWord (w := "infinity".toList) (c := 'i') (by decide) (by decide)
  have notNan := noWord (w := "nan".toList) (c := 'n') (by decide) (by decide)
  rw [read?_eq_readAscii fun c hc => plain_of_keypad (keys c hc)]
  simp only [readAscii, small, notInf, notInfinity, notNan, decide_false, Bool.or_self,
    Bool.false_eq_true, if_false]

theorem eq_nil_of_readExponent {t : Text} (keys : ∀ c ∈ t, KeypadChar c)
    (read : (readExponent t).isSome) : t = [] := by
  cases t with
  | nil => rfl
  | cons c t =>
    have notLetter : ¬ (c = 'e' ∨ c = 'E') := by
      rintro (rfl | rfl)
      · exact absurd (keys 'e' (by simp)) (by decide)
      · exact absurd (keys 'E' (by simp)) (by decide)
    simp [readExponent, notLetter] at read

theorem pointed_of_readUnsigned {t : Text} (keys : ∀ c ∈ t, KeypadChar c)
    (read : (readUnsigned t).isSome) : Pointed t := by
  have whole : Pointed (t.takeWhile Char.isDigit) := fun c hc => .inl (List.mem_takeWhile_imp hc)
  have keys' : ∀ c ∈ t.dropWhile Char.isDigit, KeypadChar c := fun c hc =>
    keys c ((List.dropWhile_sublist _).subset hc)
  suffices rest : Pointed (t.dropWhile Char.isDigit) by
    rw [← List.takeWhile_append_dropWhile (p := Char.isDigit) (l := t)]
    exact fun c hc => (List.mem_append.1 hc).elim (whole c) (rest c)
  -- After the digits there can be a point and more digits.  An exponent would start with a letter.
  unfold readUnsigned at read
  generalize t.dropWhile Char.isDigit = rest at read keys' ⊢
  dsimp only at read
  split at read
  · cases read
  · rw [Option.isSome_map] at read
    unfold splitFraction at read
    split at read
    · next fraction =>
      have spent := eq_nil_of_readExponent (fun c hc => keys' c (List.mem_cons_of_mem _
        ((List.dropWhile_sublist _).subset hc))) read
      intro c hc
      rcases List.mem_cons.1 hc with rfl | hc
      · exact .inr rfl
      · exact .inl (List.dropWhile_eq_nil_iff.1 spent c hc)
    · rw [eq_nil_of_readExponent keys' read]
      simp [Pointed]

/-- Of the texts on the keypad, the reader accepts the numbers without a sign and with one. -/
theorem isSome_read?_keypad {t : Text} (keys : ∀ c ∈ t, KeypadChar c) :
    (read? t).isSome ↔ UnsignedNumeral (splitSign t).2 := by
  rw [read?_keypad keys, Option.isSome_map]
  constructor
  · intro read
    have pointed := pointed_of_readUnsigned
      (fun c hc => keys c ((splitSign_sublist t).subset hc)) read
    exact (isSome_readUnsigned pointed).1 read
  · exact fun numeral => (isSome_readUnsigned numeral.pointedText).2 numeral

/-- A point after whole digits does not change what is read. -/
theorem read?_concat_point {n : Text} (numeral : Numeral n) (noPoint : n.count '.' = 0) :
    read? (n ++ ['.']) = read? n := by
  have unsigned {u : Text} (h : UnsignedNumeral u) (noPoint : u.count '.' = 0) (negative : Bool) :
      read? (signed negative (u ++ ['.'])) = read? (signed negative u) := by
    cases h with
    | whole nonempty digits =>
      have none : Digits [] := by simp [Digits]
      have point := (UnsignedNumeral.pointed nonempty digits none).pointedText
      rw [read?_signed point, read?_signed digits.pointed,
        readUnsigned_pointed digits none (by simpa using nonempty),
        readUnsigned_whole digits nonempty, List.append_nil]
      rfl
    | pointed => simp at noPoint
    | fraction => simp at noPoint
  cases numeral with
  | unsigned h => exact unsigned h noPoint false
  | negative h => exact unsigned h (by simpa using noPoint) true

end Decimal

/-! ### Expressions of one literal -/

namespace Token

theorem Row.exists_literal {tokens : List Token} (row : Row tokens)
    (noOperator : ∀ o : Operator, o.symbol ∉ withoutSign (textOf tokens)) :
    ∃ n, tokens = [.literal n] := by
  cases row with
  | @literal n raw => exact ⟨n, rfl⟩
  | @operation n rest raw o row =>
    refine absurd ?_ (noOperator o)
    have texts : textOf (.literal n :: .operator o :: rest) = n ++ o.symbol :: textOf rest := by
      simp [textOf, text]
    rw [texts, withoutSign_append raw.ne_nil]
    simp

theorem Row.head?_ne_plus {tokens : List Token} (row : Row tokens) (rest : Text) :
    (textOf tokens ++ rest).head? ≠ some '+' := by
  have begins {n : Text} (raw : RawLiteral n) (u : Text) : (n ++ u).head? ≠ some '+' := by
    cases n with
    | nil => exact raw.elim
    | cons c n =>
      rintro ⟨⟩
      exact absurd raw.1 (by decide)
  cases row with
  | literal raw => simpa [textOf, text] using begins raw rest
  | @operation n others raw o row =>
    simpa [textOf, text] using begins raw (o.symbol :: textOf others ++ rest)

end Token

theorem Numeral.count_point_le {n : Text} (h : Numeral n) : n.count '.' ≤ 1 := by
  cases h with
  | unsigned h => exact h.count_point_le
  | negative h => simpa using h.count_point_le

theorem count_point_withoutSign (t : Text) : (withoutSign t).count '.' = t.count '.' := by
  unfold withoutSign
  split
  · simp
  · rfl

section Expressions

variable {e : Text} {t : Tree} (keys : ∀ c ∈ e, KeypadChar c) (built : Expression.build e = .ok t)

include keys built

/-- An expression without an operator is a number, with a pending point if any. -/
theorem exists_numeral_of_build (noOperator : ∀ o : Operator, o.symbol ∉ withoutSign e) :
    ∃ n, Numeral n ∧ Expression.Pending e n ∧ (e = n ∨ e = n ++ ['.']) := by
  obtain ⟨tokens, ls, row, pending, read, rfl⟩ := Expression.build_eq_ok_iff_row.1 built
  have nonempty := row.textOf_ne_nil
  have front : (withoutSign (Token.textOf tokens)).Sublist (withoutSign e) ∧
      (e = Token.textOf tokens ∨ e = Token.textOf tokens ++ ['.']) := by
    generalize Token.textOf tokens = s at pending nonempty
    cases pending with
    | complete => exact ⟨List.Sublist.refl _, .inl rfl⟩
    | @waiting s c notDigit =>
      have split := withoutSign_append nonempty [c]
      refine ⟨split ▸ List.sublist_append_left _ _, .inr ?_⟩
      -- A pending operator is an operator of the text, so that only the point can be pending.
      rcases keys c (by simp) with digit | rfl | ⟨o, rfl⟩
      · exact absurd digit notDigit
      · rfl
      · exact absurd (split ▸ by simp) (noOperator o)
  obtain ⟨n, rfl⟩ := row.exists_literal fun o inside => noOperator o (front.1.subset inside)
  have text : Token.textOf [.literal n] = n := by simp [Token.textOf, Token.text]
  rw [text] at pending front
  exact ⟨n, Expression.numeral_of_labels row read (by simp), pending, front.2⟩

theorem LoneLiteral.exists_read? (lone : LoneLiteral e) :
    ∃ v, calculate e = .ok v ∧ Decimal.read? e = some v := by
  obtain ⟨n, numeral, pending, text⟩ := exists_numeral_of_build keys built lone.noOperator
  obtain ⟨v, read⟩ := Option.isSome_iff_exists.1 (numeral.rawLiteral.isSome_read?.2 numeral)
  refine ⟨v, calculate_of_literal numeral pending read, ?_⟩
  rcases text with rfl | rfl
  · exact read
  · have onePoint := lone.onePoint
    rw [List.count_append, List.count_singleton_self] at onePoint
    rw [Decimal.read?_concat_point numeral (by omega), read]

theorem loneLiteral_of_read? (read : (Decimal.read? e).isSome) : LoneLiteral e := by
  have numeral := (Decimal.isSome_read?_keypad keys).1 read
  have sign : (Decimal.splitSign e).2 = withoutSign e := by
    obtain ⟨tokens, -, row, pending, -, -⟩ := Expression.build_eq_ok_iff_row.1 built
    have notPlus : e.head? ≠ some '+' := by
      cases pending with
      | complete => simpa using row.head?_ne_plus []
      | waiting => exact row.head?_ne_plus _
    exact Decimal.splitSign_snd notPlus
  rw [sign] at numeral
  refine ⟨fun o inside => ?_, ?_⟩
  · rcases numeral.pointedText _ inside with digit | point
    · exact absurd (Operator.ofSymbol?_digit digit) (by simp)
    · revert point
      cases o <;> decide
  · rw [← count_point_withoutSign]
    exact numeral.count_point_le

/-- An expression that is no lone literal has an operator or a second point left at its end. -/
theorem operator_or_point_of_not_lone (several : ¬ LoneLiteral e) :
    (∃ o : Operator, o.symbol ∈ withoutSign e) ∨ ∃ n, e = n ++ ['.'] ∧ n.count '.' = 1 := by
  by_cases operator : ∃ o : Operator, o.symbol ∈ withoutSign e
  · exact .inl operator
  · have noOperator := not_exists.1 operator
    obtain ⟨n, numeral, -, text⟩ := exists_numeral_of_build keys built noOperator
    have points : ¬ e.count '.' ≤ 1 := fun onePoint => several ⟨noOperator, onePoint⟩
    have onePoint := numeral.count_point_le
    rcases text with rfl | rfl
    · exact absurd onePoint points
    · refine .inr ⟨n, rfl, ?_⟩
      rw [List.count_append, List.count_singleton_self] at points
      omega

end Expressions

namespace Display

theorem percent_of_read? {t : Text} {v : Float} (read : Decimal.read? t = some v) :
    percent ⟨t⟩ = ⟨resultText (v / 100)⟩ := by
  simp only [percent, read]

theorem percent_of_no_number {t : Text} (read : Decimal.read? t = none) : percent ⟨t⟩ = ⟨t⟩ := by
  simp only [percent, read]

/-- On an expression typed on the keypad, percent shows the hundredth of the value if the text is one
literal, and leaves the text as it is otherwise, when there is an operator in it, pending or not, or a
second point at its end. -/
theorem percent_agrees_with_value {e : Text} (keys : ∀ c ∈ e, KeypadChar c) {t : Tree}
    (built : Expression.build e = .ok t) :
    (LoneLiteral e →
      ∃ v, calculate e = .ok v ∧ percent ⟨e⟩ = ⟨resultText (v / 100)⟩) ∧
    (¬ LoneLiteral e →
      percent ⟨e⟩ = ⟨e⟩ ∧
        ((∃ o : Operator, o.symbol ∈ withoutSign e) ∨ ∃ n, e = n ++ ['.'] ∧ n.count '.' = 1)) := by
  refine ⟨fun lone => ?_, fun several => ⟨?_, operator_or_point_of_not_lone keys built several⟩⟩
  · obtain ⟨v, value, read⟩ := lone.exists_read? keys built
    exact ⟨v, value, percent_of_read? read⟩
  · refine percent_of_no_number (Option.not_isSome_iff_eq_none.1 fun read => several ?_)
    exact loneLiteral_of_read? keys built read

/-- A point at the end of a literal is read with it, unless there is a point before it. -/
theorem percent_agrees_with_value_pointed :
    let e := "-5.".toList
    let f := "1.5.".toList
    ((∀ c ∈ e, KeypadChar c) ∧ (∃ t, Expression.build e = .ok t) ∧ LoneLiteral e ∧
        ∃ v, calculate e = .ok v ∧ percent ⟨e⟩ = ⟨resultText (v / 100)⟩) ∧
      (∀ c ∈ f, KeypadChar c) ∧ (∃ t, Expression.build f = .ok t) ∧ ¬ LoneLiteral f ∧
        percent ⟨f⟩ = ⟨f⟩ := by
  intro e f
  have keys {t : Text} (all : t.all (KeypadChar ·)) : ∀ c ∈ t, KeypadChar c := by simpa using all
  have keysE : ∀ c ∈ e, KeypadChar c := keys (by decide)
  have keysF : ∀ c ∈ f, KeypadChar c := keys (by decide)
  obtain ⟨t, builtE⟩ := Expression.exists_build_of_isOk (e := e) (by decide +kernel)
  obtain ⟨u, builtF⟩ := Expression.exists_build_of_isOk (e := f) (by decide +kernel)
  have lone : LoneLiteral e := ⟨fun o => by cases o <;> decide, by decide⟩
  have several : ¬ LoneLiteral f := fun h => absurd h.onePoint (by decide)
  exact ⟨⟨keysE, ⟨t, builtE⟩, lone, (percent_agrees_with_value keysE builtE).1 lone⟩, keysF,
    ⟨u, builtF⟩, several, ((percent_agrees_with_value keysF builtF).2 several).1⟩

end Display

end DeskCalc
