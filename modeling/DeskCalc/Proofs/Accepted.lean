import DeskCalc.Proofs.Typing

/-! What an expression with a tree looks like: a row of tokens whose literals are numbers, and
perhaps one character at the end that waits for its operand.  A change to such a text is a change to
its tokens, and the tree that comes of it is that of the new labels. -/

namespace DeskCalc

namespace Expression

/-- A text and what is left of it without its pending character: all of it after a digit, and all but
the last character when that is no digit. -/
inductive Pending : Text → Text → Prop
  | complete {t : Text} {c : Char} (last : t.getLast? = some c) (digit : c.isDigit) : Pending t t
  | waiting {t : Text} {c : Char} (notDigit : ¬ c.isDigit) : Pending (t ++ [c]) t

theorem Pending.stripPending_eq {e s : Text} (h : Pending e s) : stripPending e = s := by
  cases h with
  | complete last digit => exact stripPending_of_getLast? last digit
  | waiting notDigit => exact stripPending_concat_pending s notDigit

theorem pending_stripPending {e : Text} (nonempty : e ≠ []) : Pending e (stripPending e) := by
  obtain ⟨u, c, rfl⟩ := (List.eq_nil_or_concat e).resolve_left nonempty
  rw [List.concat_eq_append]
  by_cases digit : c.isDigit
  · have last : (u ++ [c]).getLast? = some c := List.getLast?_concat
    rw [stripPending_of_getLast? last digit]
    exact .complete last digit
  · rw [stripPending_concat_pending u digit]
    exact .waiting digit

theorem Pending.ne_nil {e s : Text} (h : Pending e s) : e ≠ [] := by
  cases h with
  | complete last =>
    rintro rfl
    cases last
  | waiting => simp

/-- The literals of a row that has labels are numbers. -/
theorem numeral_of_labels {tokens : List Token} (row : Token.Row tokens) {ls : List Label}
    (read : labels tokens = .ok ls) {t : Text} (h : .literal t ∈ tokens) : Numeral t :=
  (exists_parseLiteral_iff (row.rawLiteral h)).1 (exists_labels_iff.1 ⟨ls, read⟩ t h)

/-- An expression has a tree exactly if it is a row of tokens with labels before its pending
character. -/
theorem build_eq_ok_iff_row {e : Text} {t : Tree} :
    build e = .ok t ↔ ∃ tokens ls, Token.Row tokens ∧ Pending e (Token.textOf tokens) ∧
      labels tokens = .ok ls ∧ t = Tree.ofLabels ls := by
  rw [build_eq_ok_iff]
  constructor
  · rintro ⟨nonempty, tokens, ls, scanned, read, rfl⟩
    obtain ⟨row, texts⟩ := Token.tokenize_eq_ok_iff.1 scanned
    exact ⟨tokens, ls, row, texts ▸ pending_stripPending nonempty, read, rfl⟩
  · rintro ⟨tokens, ls, row, pending, read, rfl⟩
    refine ⟨pending.ne_nil, tokens, ls, ?_, read, rfl⟩
    exact Token.tokenize_eq_ok_iff.2 ⟨row, pending.stripPending_eq.symm⟩

theorem exists_build_of_isOk {e : Text} (ok : (build e).isOk) : ∃ t, build e = .ok t := by
  cases h : build e with
  | ok t => exact ⟨t, rfl⟩
  | error err => simp [h, Except.isOk, Except.toBool] at ok

end Expression

/-- The value of a single number, perhaps with a pending character after it, is what it is read as. -/
theorem calculate_of_literal {e n : Text} {v : Float} (numeral : Numeral n)
    (pending : Expression.Pending e n) (read : Decimal.read? n = some v) :
    calculate e = .ok v := by
  have text : Token.textOf [.literal n] = n := by simp [Token.textOf, Token.text]
  have label : Expression.labels [.literal n] = .ok [.number v] := by
    simp [Expression.labels, Expression.label, Expression.parseLiteral, read]
  have built : Expression.build e = .ok (Tree.ofLabels [.number v]) :=
    Expression.build_eq_ok_iff_row.2
      ⟨_, _, .literal numeral.rawLiteral, text.symm ▸ pending, label, rfl⟩
  simp only [calculate, built, Tree.evaluate_eq_value]
  rfl

end DeskCalc
