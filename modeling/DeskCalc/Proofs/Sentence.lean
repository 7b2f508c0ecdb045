import DeskCalc.Expression.Building
import DeskCalc.Proofs.Numeral

/-! Which expressions have a tree.  A sentence is a row of numbers with operators between them, and an
expression has a tree exactly when a sentence is left of it without its pending last character.  Any
other expression has the error of the first stage that fails: it is empty, it cannot be cut into tokens,
or the leftmost literal that is no number is malformed. -/

namespace DeskCalc

/-- Numbers with an operator between any two. -/
inductive Sentence : Text → Prop
  | numeral {n : Text} (h : Numeral n) : Sentence n
  | operation {n rest : Text} (h : Numeral n) (o : Operator) (others : Sentence rest) :
      Sentence (n ++ o.symbol :: rest)

namespace Token

theorem Row.rawLiteral {tokens : List Token} (row : Row tokens) {t : Text}
    (h : .literal t ∈ tokens) : RawLiteral t := by
  induction row with
  | literal raw =>
    obtain rfl : t = _ := by simpa using h
    exact raw
  | operation raw o row ih =>
    simp only [List.mem_cons, literal.injEq, reduceCtorEq, false_or] at h
    rcases h with rfl | h
    · exact raw
    · exact ih h

theorem Row.sentence {tokens : List Token} (row : Row tokens)
    (numbers : ∀ t, .literal t ∈ tokens → Numeral t) : Sentence (textOf tokens) := by
  induction row with
  | @literal t raw => simpa [textOf, text] using Sentence.numeral (numbers t (by simp))
  | @operation t rest raw o row ih =>
    have others := ih fun u hu => numbers u (by simp [hu])
    simpa [textOf, text] using Sentence.operation (numbers t (by simp)) o others

end Token

theorem Sentence.exists_row {s : Text} (h : Sentence s) :
    ∃ tokens, Token.Row tokens ∧ Token.textOf tokens = s ∧
      ∀ t, .literal t ∈ tokens → Numeral t := by
  induction h with
  | @numeral n h =>
    exact ⟨[.literal n], .literal h.rawLiteral, by simp [Token.textOf, Token.text], by simpa using h⟩
  | @operation n rest h o others ih =>
    obtain ⟨tokens, row, rfl, numbers⟩ := ih
    refine ⟨.literal n :: .operator o :: tokens, .operation h.rawLiteral o row,
      by simp [Token.textOf, Token.text], fun t ht => ?_⟩
    simp only [List.mem_cons, Token.literal.injEq, reduceCtorEq, false_or] at ht
    rcases ht with rfl | ht
    · exact h
    · exact numbers t ht

/-- A text is a sentence when it is cut into tokens of which each literal is a number. -/
theorem sentence_iff {s : Text} : Sentence s ↔
    ∃ tokens, tokenize s = .ok tokens ∧ ∀ t, .literal t ∈ tokens → Numeral t := by
  constructor
  · intro h
    obtain ⟨tokens, row, texts, numbers⟩ := h.exists_row
    exact ⟨tokens, Token.tokenize_eq_ok_iff.2 ⟨row, texts⟩, numbers⟩
  · rintro ⟨tokens, scanned, numbers⟩
    obtain ⟨row, rfl⟩ := Token.tokenize_eq_ok_iff.1 scanned
    exact row.sentence numbers

namespace Expression

/-- Why an expression has no tree: the first of three faults that it has. -/
inductive FirstFault : Text → ParseError → Prop
  | empty : FirstFault [] .emptyExpression
  | tokens {e : Text} {p : ParseError} (nonempty : e ≠ [])
      (scanned : tokenize (stripPending e) = .error p) : FirstFault e p
  | literal {e t : Text} {before after : List Token} (nonempty : e ≠ [])
      (scanned : tokenize (stripPending e) = .ok (before ++ .literal t :: after))
      (numbers : ∀ u, .literal u ∈ before → Numeral u) (malformed : ¬ Numeral t) :
      FirstFault e (.malformedNumber t)

/-- The last character of an expression is dropped unless it is an ASCII digit. -/
theorem stripPending_concat (u : Text) (c : Char) :
    stripPending (u ++ [c]) = if '0' ≤ c ∧ c ≤ '9' then u ++ [c] else u := by
  have digit : c.isDigit ↔ '0' ≤ c ∧ c ≤ '9' := by
    simp only [Char.isDigit, Bool.and_eq_true, decide_eq_true_eq, Char.le_def, ge_iff_le]
  simp only [stripPending, List.getLast?_concat, List.dropLast_concat, digit]

theorem labels_eq_error_iff_malformed {tokens : List Token} (row : Token.Row tokens)
    {p : ParseError} : labels tokens = .error p ↔
      ∃ before t after, tokens = before ++ .literal t :: after ∧
        (∀ u, .literal u ∈ before → Numeral u) ∧ ¬ Numeral t ∧ p = .malformedNumber t := by
  rw [labels_eq_error_iff]
  constructor
  · rintro ⟨before, t, after, rfl, numbers, bad⟩
    refine ⟨before, t, after, rfl, fun u hu => ?_, ?_⟩
    · exact (exists_parseLiteral_iff (row.rawLiteral (by simp [hu]))).1 (numbers u hu)
    · exact (parseLiteral_eq_error_iff (row.rawLiteral (by simp))).1 bad
  · rintro ⟨before, t, after, rfl, numbers, bad⟩
    refine ⟨before, t, after, rfl, fun u hu => ?_, ?_⟩
    · exact (exists_parseLiteral_iff (row.rawLiteral (by simp [hu]))).2 (numbers u hu)
    · exact (parseLiteral_eq_error_iff (row.rawLiteral (by simp))).2 bad

theorem exists_build_iff {e : Text} :
    (∃ t, build e = .ok t) ↔ e ≠ [] ∧ Sentence (stripPending e) := by
  rw [exists_build_iff_tokens, sentence_iff]
  refine and_congr_right fun _ => exists_congr fun tokens => and_congr_right fun scanned => ?_
  have row := (Token.tokenize_eq_ok_iff.1 scanned).1
  exact forall₂_congr fun t ht => exists_parseLiteral_iff (row.rawLiteral ht)

theorem build_eq_error_iff_firstFault {e : Text} {err : BuildError} :
    build e = .error err ↔ ∃ p, err = .parse p ∧ FirstFault e p := by
  rw [build_eq_error_iff]
  refine exists_congr fun p => and_congr_right fun _ => ?_
  constructor
  · rintro (⟨rfl, rfl⟩ | ⟨nonempty, scanned⟩ | ⟨nonempty, tokens, scanned, bad⟩)
    · exact .empty
    · exact .tokens nonempty scanned
    · have row := (Token.tokenize_eq_ok_iff.1 scanned).1
      obtain ⟨before, t, after, rfl, numbers, malformed, rfl⟩ :=
        (labels_eq_error_iff_malformed row).1 bad
      exact .literal nonempty scanned numbers malformed
  · intro fault
    cases fault with
    | empty => exact .inl ⟨rfl, rfl⟩
    | tokens nonempty scanned => exact .inr (.inl ⟨nonempty, scanned⟩)
    | literal nonempty scanned numbers malformed =>
      have row := (Token.tokenize_eq_ok_iff.1 scanned).1
      exact .inr (.inr ⟨nonempty, _, scanned,
        (labels_eq_error_iff_malformed row).2 ⟨_, _, _, rfl, numbers, malformed, rfl⟩⟩)

/-- An expression has a tree exactly when a sentence is left of it without a pending last character,
which is any but an ASCII digit.  Otherwise its error is its first fault. -/
theorem build_accepts_sentences (e : Text) :
    (∀ u c, stripPending (u ++ [c]) = if '0' ≤ c ∧ c ≤ '9' then u ++ [c] else u) ∧
      ((∃ t, build e = .ok t) ↔ e ≠ [] ∧ Sentence (stripPending e)) ∧
      ∀ err, build e = .error err ↔ ∃ p, err = .parse p ∧ FirstFault e p :=
  ⟨stripPending_concat, exists_build_iff, fun _ => build_eq_error_iff_firstFault⟩

end Expression

end DeskCalc
