import DeskCalc.Display
import DeskCalc.Proofs.Literal
import DeskCalc.Proofs.Reporting
import DeskCalc.Proofs.Sentence

/-! Typing an expression on the display.  The display keeps every character that is typed but the zeros
that would begin a literal.  These are the leading zeros of the literals, so that an expression whose
literals all have a digit left without them has the same tree on the display as in what was typed, and
the equals key shows its value. -/

namespace DeskCalc

/-- A character on the keys for digits, operators and the point. -/
def KeypadChar (c : Char) : Prop := c.isDigit ∨ c = '.' ∨ ∃ o : Operator, c = o.symbol

instance (c : Char) : Decidable (KeypadChar c) :=
  decidable_of_iff (c.isDigit ∨ c = '.' ∨ (Operator.ofSymbol? c).isSome) <| by
    simp only [KeypadChar, Option.isSome_iff_exists, Operator.ofSymbol?_eq_some]

theorem RawLiteral.keypad {t : Text} (raw : RawLiteral t) : ∀ c ∈ t, KeypadChar c := by
  intro c hc
  cases t with
  | nil => exact raw.elim
  | cons d rest =>
    rcases List.mem_cons.1 hc with rfl | hc
    · rcases raw.1 with digit | rfl | rfl
      · exact .inl digit
      · exact .inr (.inl rfl)
      · exact .inr (.inr ⟨.minus, rfl⟩)
    · exact (raw.2 c hc).imp_right .inl

/-- A text that has tokens is typed on the keypad. -/
theorem Token.Row.keypad {tokens : List Token} (row : Token.Row tokens) :
    ∀ c ∈ Token.textOf tokens, KeypadChar c := by
  intro c hc
  induction row with
  | @literal t raw =>
    have texts : Token.textOf [.literal t] = t ++ [] := rfl
    rw [texts, List.append_nil] at hc
    exact raw.keypad c hc
  | @operation t rest raw o row ih =>
    have texts : Token.textOf (.literal t :: .operator o :: rest)
        = t ++ o.symbol :: Token.textOf rest := by
      simp [Token.textOf, Token.text]
    rw [texts, List.mem_append, List.mem_cons] at hc
    rcases hc with hc | rfl | hc
    · exact raw.keypad c hc
    · exact .inr (.inr ⟨o, rfl⟩)
    · exact ih hc

theorem Operator.ofSymbol?_digit {c : Char} (h : c.isDigit) : ofSymbol? c = none := by
  cases hs : ofSymbol? c with
  | none => rfl
  | some o =>
    rw [ofSymbol?_eq_some.1 hs] at h
    revert h
    cases o <;> decide

theorem Operator.symbol_ne_zero (o : Operator) : o.symbol ≠ '0' := by
  cases o <;> decide

/-- Whether a literal begins after the character: there is none, or it is an operator. -/
def beginsLiteral (previous : Option Char) : Bool :=
  previous.all fun c => (Operator.ofSymbol? c).isSome

/-- What is kept of a typed text: all but the zeros that would begin a literal.  `previous` is the last
character that was kept before. -/
def kept (previous : Option Char) : Text → Text
  | [] => []
  | c :: rest =>
    if c = '0' && beginsLiteral previous then kept previous rest else c :: kept (some c) rest

theorem kept_cons_of_ne {c : Char} (h : c ≠ '0') (previous : Option Char) (rest : Text) :
    kept previous (c :: rest) = c :: kept (some c) rest := by
  rw [kept, if_neg (by simp [h])]

theorem kept_zero_cons {previous : Option Char} (h : beginsLiteral previous) (rest : Text) :
    kept previous ('0' :: rest) = kept previous rest := by
  rw [kept, if_pos (by simp [h])]

theorem kept_cons_of_not_begins {previous : Option Char} (h : beginsLiteral previous = false)
    (c : Char) (rest : Text) : kept previous (c :: rest) = c :: kept (some c) rest := by
  rw [kept, if_neg (by simp [h])]

/-- The first character of a text to be typed after `t`, and then the others. -/
theorem kept_getLast?_cons (t : Text) (c : Char) (rest : Text) :
    kept t.getLast? (c :: rest)
      = kept t.getLast? [c] ++ kept (t ++ kept t.getLast? [c]).getLast? rest := by
  by_cases h : c = '0' && beginsLiteral t.getLast?
  · simp only [kept, if_pos h, List.append_nil, List.nil_append]
  · simp only [kept, if_neg h, List.getLast?_concat, List.cons_append, List.nil_append]

/-! ### The text on the display -/

namespace Display

/-- Presses keys one by one, up to one that is refused. -/
def pressAll : Display → Text → Except DisplayError Display
  | d, [] => .ok d
  | d, c :: rest =>
    match d.press [c] with
    | .ok d' => pressAll d' rest
    | .error e => .error e

theorem pressAll_append {d d' : Display} {first : Text} (h : d.pressAll first = .ok d')
    (rest : Text) : d.pressAll (first ++ rest) = d'.pressAll rest := by
  induction first generalizing d with
  | nil =>
    obtain rfl := Except.ok.inj h
    rfl
  | cons c first ih =>
    rw [pressAll] at h
    rw [List.cons_append, pressAll]
    cases pressed : d.press [c] with
    | error e => simp [pressed] at h
    | ok d₁ =>
      simp only [pressed] at h ⊢
      exact ih h

/-- A text that can be typed on: it ends with a character of the keypad, and the zero of an empty
display does not count as one. -/
structure Typeable (t : Text) : Prop where
  ne_zeroText : t ≠ zeroText
  last : ∀ c, t.getLast? = some c → KeypadChar c

theorem Typeable.nil : Typeable [] := ⟨by decide, by simp⟩

theorem Typeable.concat {t : Text} {c : Char} (h : Typeable t) (key : KeypadChar c)
    (ne : t = [] → c ≠ '0') : Typeable (t ++ [c]) := by
  refine ⟨fun zero => ?_, fun d hd => ?_⟩
  · cases t with
    | nil => exact ne rfl (by simpa [zeroText] using zero)
    | cons d t => simp [zeroText] at zero
  · rw [List.getLast?_concat] at hd
    obtain rfl := Option.some.inj hd
    exact key

theorem stem_ofText {t : Text} (h : t ≠ zeroText) : (ofText t).stem = t := by
  cases t with
  | nil => rfl
  | cons c t => exact if_neg h

/-- A digit after a text that can be typed on is appended, unless it is a zero that would begin a
literal. -/
theorem putDigit_ofText {t : Text} (h : Typeable t) {c : Char} :
    (ofText t).putDigit c = ofText (t ++ kept t.getLast? [c]) := by
  rcases List.eq_nil_or_concat t with rfl | ⟨u, last, rfl⟩
  · have shown : (ofText []).putDigit c = ⟨[c]⟩ := rfl
    rw [shown]
    by_cases hc : c = '0'
    · subst hc
      rfl
    · rw [List.getLast?_nil, kept_cons_of_ne hc]
      rfl
  · rw [List.concat_eq_append] at h ⊢
    have nonempty : (u ++ [last]).isEmpty = false := by simp
    have text : (ofText (u ++ [last])).text = u ++ [last] := by simp [ofText]
    have key := h.last last List.getLast?_concat
    rw [putDigit, text, stem_ofText h.ne_zeroText]
    simp only [List.getLast?_concat]
    by_cases digit : last.isDigit
    · have inside : beginsLiteral (some last) = false := by
        simp [beginsLiteral, Operator.ofSymbol?_digit digit]
      rw [if_pos digit, kept_cons_of_not_begins inside]
      simp [ofText, kept]
    · rw [if_neg digit]
      rcases key with digit' | rfl | ⟨o, rfl⟩
      · exact absurd digit' digit
      · rw [if_pos (by simp), kept_cons_of_not_begins (by decide)]
        simp [ofText, kept]
      · have begins : beginsLiteral (some o.symbol) := by simp [beginsLiteral]
        have notPoint : o.symbol ≠ '.' := by cases o <;> decide
        by_cases hc : c = '0'
        · subst hc
          rw [if_neg (by simp [notPoint]), kept_zero_cons begins]
          simp [ofText, kept]
        · rw [if_pos (by simp [hc]), kept_cons_of_ne hc]
          simp [ofText, kept]

/-- One key keeps the display typeable and appends what is kept of it. -/
theorem press_keypad {t : Text} (h : Typeable t) {c : Char} (key : KeypadChar c) :
    (ofText t).press [c] = .ok (ofText (t ++ kept t.getLast? [c])) ∧
      Typeable (t ++ kept t.getLast? [c]) := by
  have symbol (ne : c ≠ '0') (bound : Command.ofKey? [c] = some (.symbol c)) :
      (ofText t).press [c] = .ok (ofText (t ++ kept t.getLast? [c])) := by
    have typed : (ofText t).putSymbol c = ⟨t ++ [c]⟩ := by
      rw [putSymbol, stem_ofText h.ne_zeroText]
    have shown : ofText (t ++ kept t.getLast? [c]) = ⟨t ++ [c]⟩ := by
      rw [kept_cons_of_ne ne]
      simp [ofText, kept]
    rw [press, bound, shown, ← typed]
    rfl
  constructor
  · rcases key with digit | rfl | ⟨o, rfl⟩
    · have bound : Command.ofKey? [c] = some (.digit c) := if_pos digit
      rw [press, bound]
      exact congrArg _ (putDigit_ofText h)
    · exact symbol (by decide) (by decide)
    · exact symbol o.symbol_ne_zero (by cases o <;> decide)
  · by_cases dropped : c = '0' && beginsLiteral t.getLast?
    · simpa only [kept, if_pos dropped, List.append_nil] using h
    · simp only [kept, if_neg dropped]
      refine h.concat key ?_
      rintro rfl rfl
      exact dropped rfl

/-- Typing appends what is kept of the keys. -/
theorem pressAll_keypad {t k : Text} (h : Typeable t) (keys : ∀ c ∈ k, KeypadChar c) :
    (ofText t).pressAll k = .ok (ofText (t ++ kept t.getLast? k)) := by
  induction k generalizing t with
  | nil => simp [pressAll, kept]
  | cons c k ih =>
    obtain ⟨pressed, typeable⟩ := press_keypad h (keys c (by simp))
    have rest := ih typeable fun d hd => keys d (by simp [hd])
    rw [pressAll, pressed, kept_getLast?_cons t c k, ← List.append_assoc]
    exact rest

end Display

/-! ### The literals that are kept -/

/-- The rest of a text does not begin with a zero, so that it is kept the same after any character. -/
def NoLeadingZero (rest : Text) : Prop := ∀ p q, kept p rest = kept q rest

theorem NoLeadingZero.nil : NoLeadingZero [] := fun _ _ => rfl

theorem NoLeadingZero.cons {c : Char} (h : c ≠ '0') (rest : Text) : NoLeadingZero (c :: rest) :=
  fun p q => by rw [kept_cons_of_ne h, kept_cons_of_ne h]

/-- After the first digit that is kept, or a point, all of a literal is. -/
theorem kept_pointed {t rest : Text} (ht : Pointed t) (free : NoLeadingZero rest) {c : Char}
    (inside : beginsLiteral (some c) = false) :
    kept (some c) (t ++ rest) = t ++ kept none rest := by
  induction t generalizing c with
  | nil => exact free _ _
  | cons d t ih =>
    have inside' : beginsLiteral (some d) = false := by
      rcases ht d (by simp) with digit | rfl
      · simp [beginsLiteral, Operator.ofSymbol?_digit digit]
      · decide
    have rest' : Pointed t := fun e he => ht e (by simp [he])
    rw [List.cons_append, kept_cons_of_not_begins inside, ih rest' inside', List.cons_append]

/-- A number without a sign is kept without its leading zeros. -/
theorem kept_dropWhile {t rest : Text} (ht : Pointed t) (free : NoLeadingZero rest)
    {previous : Option Char} (begins : beginsLiteral previous)
    (digit : t.dropWhile (· = '0') ≠ []) :
    kept previous (t ++ rest) = t.dropWhile (· = '0') ++ kept none rest := by
  induction t with
  | nil => exact absurd rfl digit
  | cons d t ih =>
    have rest' : Pointed t := fun e he => ht e (by simp [he])
    by_cases hd : d = '0'
    · subst hd
      rw [List.cons_append, kept_zero_cons begins]
      exact ih rest' digit
    · have inside : beginsLiteral (some d) = false := by
        rcases ht d (by simp) with digit | rfl
        · simp [beginsLiteral, Operator.ofSymbol?_digit digit]
        · decide
      rw [List.cons_append, kept_cons_of_ne hd, kept_pointed rest' free inside]
      simp [hd]

/-- A literal is kept without its leading zeros. -/
theorem kept_literal {t rest : Text} (raw : RawLiteral t) (free : NoLeadingZero rest)
    {previous : Option Char} (begins : beginsLiteral previous)
    (digit : ∃ c ∈ dropZeros t, c.isDigit) :
    kept previous (t ++ rest) = dropZeros t ++ kept none rest := by
  obtain ⟨c, hc, isDigit⟩ := digit
  rcases raw.cases with pointed | ⟨u, rfl, pointed⟩
  · rw [dropZeros_pointed pointed] at hc ⊢
    exact kept_dropWhile pointed free begins (List.ne_nil_of_mem hc)
  · have inside : c ∈ u.dropWhile (· = '0') := by
      rcases List.mem_cons.1 hc with rfl | hc
      · exact absurd isDigit (by decide)
      · exact hc
    rw [List.cons_append, kept_cons_of_ne (by decide),
      kept_dropWhile pointed free (by decide) (List.ne_nil_of_mem inside)]
    rfl

namespace Token

/-- A literal without its leading zeros; an operator stays. -/
def withoutZeros : Token → Token
  | literal t => literal (dropZeros t)
  | operator o => operator o

/-- Each literal has a digit left without its leading zeros. -/
def KeepDigits (tokens : List Token) : Prop :=
  ∀ t, .literal t ∈ tokens → ∃ c ∈ dropZeros t, c.isDigit

/-- What is kept of a row of tokens are its tokens without leading zeros. -/
theorem Row.kept {tokens : List Token} (row : Row tokens) (digits : KeepDigits tokens)
    {rest : Text} (free : NoLeadingZero rest) {previous : Option Char}
    (begins : beginsLiteral previous) :
    kept previous (textOf tokens ++ rest)
      = textOf (tokens.map withoutZeros) ++ DeskCalc.kept none rest := by
  induction row generalizing previous with
  | @literal t raw =>
    have digit := digits t (by simp)
    simp only [List.map_cons, List.map_nil, withoutZeros, textOf, List.flatMap_cons,
      List.flatMap_nil, text, List.append_nil]
    exact kept_literal raw free begins digit
  | @operation t others raw o row ih =>
    have digit := digits t (by simp)
    have later : KeepDigits others := fun u hu => digits u (by simp [hu])
    have symbol : beginsLiteral (some o.symbol) := by simp [beginsLiteral]
    have texts : textOf (.literal t :: .operator o :: others) ++ rest
        = t ++ o.symbol :: (textOf others ++ rest) := by simp [textOf, text]
    rw [texts, kept_literal raw (.cons o.symbol_ne_zero _) begins digit,
      kept_cons_of_ne o.symbol_ne_zero, ih later symbol]
    simp [textOf, text, withoutZeros]

/-- Without leading zeros, the numbers of a row are still numbers of the same values. -/
theorem Row.withoutZeros {tokens : List Token} (row : Row tokens) (digits : KeepDigits tokens)
    (numbers : ∀ t, .literal t ∈ tokens → Numeral t) :
    Row (tokens.map withoutZeros) ∧
      Expression.labels (tokens.map Token.withoutZeros) = Expression.labels tokens ∧
      (textOf (tokens.map Token.withoutZeros)).getLast? = (textOf tokens).getLast? := by
  have label {t : Text} (numeral : Numeral t) (digit : ∃ c ∈ dropZeros t, c.isDigit) :
      Expression.label (Token.withoutZeros (.literal t)) = Expression.label (.literal t) := by
    obtain ⟨numeral', value⟩ := numeral.numeral_dropZeros digit
    obtain ⟨v, hv⟩ := (Expression.exists_parseLiteral_iff numeral.rawLiteral).2 numeral
    have read : Decimal.read? t = some v := by
      unfold Expression.parseLiteral at hv
      split at hv
      · next w read => rw [read, Except.ok.inj hv]
      · cases hv
    simp only [Token.withoutZeros, Expression.label, Expression.parseLiteral, value, read]
  induction row with
  | @literal t raw =>
    have numeral := numbers t (by simp)
    have digit := digits t (by simp)
    refine ⟨.literal (numeral.numeral_dropZeros digit).1.rawLiteral, ?_, ?_⟩
    · simp only [List.map_cons, List.map_nil, Expression.labels, label numeral digit]
    · simpa [textOf, text, Token.withoutZeros] using getLast?_dropZeros digit
  | @operation t others raw o row ih =>
    have numeral := numbers t (by simp)
    have digit := digits t (by simp)
    obtain ⟨row', labels, last⟩ :=
      ih (fun u hu => digits u (by simp [hu])) fun u hu => numbers u (by simp [hu])
    refine ⟨.operation (numeral.numeral_dropZeros digit).1.rawLiteral o row', ?_, ?_⟩
    · simp only [List.map_cons, Expression.labels, label numeral digit, labels]
      rfl
    · have texts (u : Text) (tokens : List Token) :
          textOf (.literal u :: .operator o :: tokens) = u ++ [o.symbol] ++ textOf tokens := by
        simp [textOf, text]
      simp only [List.map_cons, Token.withoutZeros, texts, List.getLast?_append, last,
        List.getLast?_singleton, Option.some_or]

theorem Row.textOf_ne_nil {tokens : List Token} (row : Row tokens) : textOf tokens ≠ [] := by
  cases row with
  | literal raw => simpa [textOf, text] using raw.ne_nil
  | operation raw o row => simp [textOf, text]

end Token

namespace Expression

theorem stripPending_of_getLast? {e : Text} {c : Char} (last : e.getLast? = some c)
    (digit : c.isDigit) : stripPending e = e := by
  simp only [stripPending, last, digit, if_true]

theorem stripPending_concat_pending (e : Text) {c : Char} (pending : ¬ c.isDigit) :
    stripPending (e ++ [c]) = e := by
  simp only [stripPending, List.getLast?_concat, if_neg pending, List.dropLast_concat]

/-- What is kept of an expression has the tree of the expression. -/
theorem build_kept {k : Text} {t : Tree} (built : build k = .ok t)
    (digits : ∀ tokens, tokenize (stripPending k) = .ok tokens → Token.KeepDigits tokens) :
    kept none k ≠ [] ∧ build (kept none k) = .ok t := by
  obtain ⟨nonempty, tokens, ls, scanned, read, rfl⟩ := build_eq_ok_iff.1 built
  have keepDigits := digits tokens scanned
  obtain ⟨row, texts⟩ := Token.tokenize_eq_ok_iff.1 scanned
  have numbers : ∀ t, .literal t ∈ tokens → Numeral t := fun t ht =>
    (exists_parseLiteral_iff (row.rawLiteral ht)).1 (exists_labels_iff.1 ⟨ls, read⟩ t ht)
  obtain ⟨row', labels, last⟩ := row.withoutZeros keepDigits numbers
  have atStart : beginsLiteral none := rfl
  have stripped : stripPending (kept none k) = Token.textOf (tokens.map Token.withoutZeros) := by
    obtain ⟨u, c, rfl⟩ := (List.eq_nil_or_concat k).resolve_left nonempty
    rw [List.concat_eq_append] at texts ⊢
    by_cases digit : c.isDigit
    -- The last character is that of the last literal, which stays.
    · have ends : (u ++ [c]).getLast? = some c := List.getLast?_concat
      rw [stripPending_of_getLast? ends digit] at texts
      have keeps := row.kept keepDigits .nil atStart
      rw [List.append_nil, texts, kept, List.append_nil] at keeps
      rw [keeps]
      exact stripPending_of_getLast? (last.trans (texts ▸ ends)) digit
    · rw [stripPending_concat_pending u digit] at texts
      have pending : c ≠ '0' := by
        rintro rfl
        exact digit (by decide)
      have keeps := row.kept keepDigits (.cons pending []) atStart
      rw [texts, kept_cons_of_ne pending] at keeps
      rw [keeps]
      exact stripPending_concat_pending _ digit
  have nonempty' : kept none k ≠ [] := by
    intro empty
    rw [empty] at stripped
    exact row'.textOf_ne_nil stripped.symm
  exact ⟨nonempty', build_eq_ok_iff.2 ⟨nonempty', tokens.map Token.withoutZeros, ls,
    Token.tokenize_eq_ok_iff.2 ⟨row', stripped.symm⟩, labels.trans read, rfl⟩⟩

end Expression

namespace Display

theorem press_equals {d : Display} {v : Float} (h : calculate d.text = .ok v) :
    d.outcome = .success d.text v ∧ d.press ['='] = .ok ⟨resultText v⟩ := by
  have outcome : d.outcome = .success d.text v := compute_eq_success_iff.2 h
  have equals : d.equals = ⟨resultText v⟩ := by
    rw [Display.equals, outcome]
    rfl
  exact ⟨outcome, congrArg Except.ok equals⟩

/-- Typing on an empty display shows the text without the zeros that would begin a literal, or zero when
nothing is left.  If the text is an expression whose literals all have a digit left without their
leading zeros, the equals key then gives its value and shows the result. -/
theorem typing_keeps_the_value {k : Text} (keys : ∀ c ∈ k, KeypadChar c) :
    zero.pressAll k = .ok (ofText (kept none k)) ∧
      ∀ t, Expression.build k = .ok t →
        (∀ tokens, tokenize (Expression.stripPending k) = .ok tokens → Token.KeepDigits tokens) →
        ∃ v, calculate k = .ok v ∧
          (ofText (kept none k)).outcome = .success (kept none k) v ∧
          zero.pressAll (k ++ ['=']) = .ok ⟨resultText v⟩ := by
  have typed : zero.pressAll k = .ok (ofText (kept none k)) := pressAll_keypad .nil keys
  refine ⟨typed, fun t built digits => ?_⟩
  obtain ⟨nonempty, built'⟩ := Expression.build_kept built digits
  obtain ⟨v, value⟩ := exists_evaluate_of_build built
  have calculated : calculate k = .ok v := by simp only [calculate, built, value]
  have shown : (ofText (kept none k)).text = kept none k := by simp [ofText, nonempty]
  have calculated' : calculate (ofText (kept none k)).text = .ok v := by
    simp only [shown, calculate, built', value]
  obtain ⟨outcome, pressed⟩ := press_equals calculated'
  rw [shown] at outcome
  refine ⟨v, calculated, outcome, ?_⟩
  rw [pressAll_append typed, pressAll, pressed]
  rfl

/-- A sign looks like an operator, so that zeros after it are dropped as well, and a zero before a point
is. -/
theorem typing_keeps_the_value_signed :
    let k := "-007x00.50+6.".toList
    (∀ c ∈ k, KeypadChar c) ∧ zero.pressAll k = .ok ⟨"-7x.50+6.".toList⟩ ∧
      (∃ t, Expression.build k = .ok t) ∧
      (∀ tokens, tokenize (Expression.stripPending k) = .ok tokens → Token.KeepDigits tokens) ∧
      ∃ v, calculate k = .ok v ∧
        (ofText (kept none k)).outcome = .success (kept none k) v ∧
        zero.pressAll (k ++ ['=']) = .ok ⟨resultText v⟩ := by
  intro k
  have keys : ∀ c ∈ k, KeypadChar c := by
    have all : k.all (KeypadChar ·) := by decide
    simpa using all
  have digits : ∀ tokens, tokenize (Expression.stripPending k) = .ok tokens →
      Token.KeepDigits tokens := by
    intro tokens h
    have scanned : tokenize (Expression.stripPending k) = .ok [.literal "-007".toList,
      .operator .times, .literal "00.50".toList, .operator .plus, .literal "6".toList] := by decide
    obtain rfl := Except.ok.inj (scanned.symm.trans h)
    intro t ht
    simp only [List.mem_cons, Token.literal.injEq, reduceCtorEq, false_or, List.not_mem_nil,
      or_false] at ht
    rcases ht with rfl | rfl | rfl
    · exact ⟨'7', by decide, by decide⟩
    · exact ⟨'5', by decide, by decide⟩
    · exact ⟨'6', by decide, by decide⟩
  have built : ∃ t, Expression.build k = .ok t := by
    have ok : (Expression.build k).isOk := by decide +kernel
    cases h : Expression.build k with
    | ok t => exact ⟨t, rfl⟩
    | error e => simp [h, Except.isOk, Except.toBool] at ok
  obtain ⟨typed, value⟩ := typing_keeps_the_value keys
  obtain ⟨t, ht⟩ := built
  exact ⟨keys, typed, ⟨t, ht⟩, digits, value t ht digits⟩

end Display

end DeskCalc
