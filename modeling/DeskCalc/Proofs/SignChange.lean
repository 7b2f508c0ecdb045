import DeskCalc.Proofs.Accepted
import DeskCalc.Proofs.Negation

/-! Negation on the display and the tree of its text.  A minus sign at the start of an expression is
always the sign of its first number.  Putting one there or taking it away changes the first token of
the row and nothing after it, and ranks do not hang on values, so that the tree of the new text is
the old one with the opposite number in its leftmost leaf. -/

namespace DeskCalc

/-! ### The first number of a tree -/

/-- The label with the opposite number; an operator stays. -/
def Label.opposite : Label → Label
  | number v => number (-v)
  | operator o => operator o

theorem Label.rank_opposite (l : Label) : l.opposite.rank = l.rank := by
  cases l <;> rfl

namespace Tree

/-- The tree with the opposite number in its leftmost leaf, the end of its left operands. -/
def negateFirst : Tree → Tree
  | empty => empty
  | node l empty b => node l.opposite empty b
  | node l (node m c d) b => node l (node m c d).negateFirst b

theorem rankAtLeast_negateFirst {n : Nat} {t : Tree} (h : t.RankAtLeast n) :
    t.negateFirst.RankAtLeast n := by
  match t with
  | empty => trivial
  | node l empty b =>
    show n ≤ l.opposite.rank
    rw [l.rank_opposite]
    exact h
  | node l (node m c d) b => exact h

theorem RankOrdered.negateFirst {t : Tree} (h : t.RankOrdered) : t.negateFirst.RankOrdered := by
  fun_induction Tree.negateFirst t with
  | case1 => trivial
  | case2 l b =>
    obtain ⟨-, right, -, orderedRight⟩ := h
    exact ⟨trivial, l.rank_opposite ▸ right, trivial, orderedRight⟩
  | case3 l m c d b ih =>
    obtain ⟨left, right, orderedLeft, orderedRight⟩ := h
    exact ⟨rankAtLeast_negateFirst left, right, ih orderedLeft, orderedRight⟩

theorem inorder_ne_nil (l : Label) (a b : Tree) : (node l a b).inorder ≠ [] := by
  simp [inorder]

theorem inorder_negateFirst (t : Tree) :
    t.negateFirst.inorder = t.inorder.modifyHead Label.opposite := by
  fun_induction Tree.negateFirst t with
  | case1 => rfl
  | case2 l b => rfl
  | case3 l m c d b ih =>
    obtain ⟨first, others, left⟩ := List.exists_cons_of_ne_nil (inorder_ne_nil m c d)
    show (node m c d).negateFirst.inorder ++ l :: b.inorder
      = ((node m c d).inorder ++ l :: b.inorder).modifyHead Label.opposite
    rw [ih, left]
    rfl

/-- With the opposite number for the first label, a sequence has the same tree but for that number. -/
theorem ofLabels_opposite (l : Label) (ls : List Label) :
    ofLabels (l.opposite :: ls) = (ofLabels (l :: ls)).negateFirst := by
  -- Both trees are ordered by rank, so that they are one tree if their labels in order are the same.
  refine (rankOrdered_ofLabels _).eq_of_inorder (rankOrdered_ofLabels _).negateFirst ?_
  rw [inorder_negateFirst, inorder_ofLabels, inorder_ofLabels]
  rfl

end Tree

/-! ### The sign of a text -/

/-- The text with its minus sign taken away, or with one put in front. -/
def toggleSign : Text → Text
  | '-' :: t => t
  | t => '-' :: t

theorem toggleSign_of_ne {c : Char} (h : c ≠ '-') (t : Text) : toggleSign (c :: t) = '-' :: c :: t := by
  simp [toggleSign, h]

theorem toggleSign_append {t : Text} (nonempty : t ≠ []) (u : Text) :
    toggleSign (t ++ u) = toggleSign t ++ u := by
  cases t with
  | nil => exact absurd rfl nonempty
  | cons c t =>
    by_cases minus : c = '-'
    · subst minus
      rfl
    · rw [toggleSign_of_ne minus, List.cons_append, toggleSign_of_ne minus]
      rfl

theorem toggleSign_signed {t : Text} (h : Pointed t) (nonempty : t ≠ []) (negative : Bool) :
    toggleSign (Decimal.signed negative t) = Decimal.signed (!negative) t := by
  cases negative with
  | true => rfl
  | false =>
    cases t with
    | nil => exact absurd rfl nonempty
    | cons c t =>
      have notMinus : c ≠ '-' := by
        rintro rfl
        exact not_pointed_minus t h
      exact toggleSign_of_ne notMinus t

theorem Numeral.exists_signed {n : Text} (h : Numeral n) :
    ∃ negative u, UnsignedNumeral u ∧ n = Decimal.signed negative u := by
  cases h with
  | unsigned h => exact ⟨false, _, h, rfl⟩
  | negative h => exact ⟨true, _, h, rfl⟩

/-- With the other sign, a number is read as the opposite number. -/
theorem Numeral.toggleSign {n : Text} (h : Numeral n) :
    Numeral (DeskCalc.toggleSign n) ∧
      Decimal.read? (DeskCalc.toggleSign n) = (Decimal.read? n).map (-·) := by
  obtain ⟨negative, u, numeral, rfl⟩ := h.exists_signed
  have pointed := numeral.pointedText
  rw [toggleSign_signed pointed numeral.ne_nil]
  refine ⟨numeral.signed (!negative), ?_⟩
  rw [Decimal.read?_signed pointed, Decimal.read?_signed pointed, Option.map_map]
  refine congrArg (Option.map · _) (funext fun d => ?_)
  exact (Decimal.neg_toFloat negative d).symm

theorem getLast?_toggleSign {t : Text} (nonempty : t ≠ []) (nonempty' : toggleSign t ≠ []) :
    (toggleSign t).getLast? = t.getLast? := by
  cases t with
  | nil => exact absurd rfl nonempty
  | cons c t =>
    by_cases minus : c = '-'
    · subst minus
      exact (List.getLast?_cons_of_ne_nil nonempty').symm
    · rw [toggleSign_of_ne minus]
      exact List.getLast?_cons_of_ne_nil nonempty

/-- A row is its first literal and what follows, and any other literal can take its place. -/
theorem Token.Row.exists_cons {tokens : List Token} (row : Token.Row tokens) :
    ∃ n rest, tokens = .literal n :: rest ∧ ∀ m, RawLiteral m → Token.Row (.literal m :: rest) := by
  cases row with
  | @literal n raw => exact ⟨n, [], rfl, fun _ raw' => .literal raw'⟩
  | @operation n rest raw o row =>
    exact ⟨n, .operator o :: rest, rfl, fun _ raw' => .operation raw' o row⟩

namespace Expression

theorem Pending.toggleSign {e s : Text} (h : Pending e s) (nonempty : s ≠ [])
    (nonempty' : DeskCalc.toggleSign s ≠ []) :
    Pending (DeskCalc.toggleSign e) (DeskCalc.toggleSign s) := by
  cases h with
  | complete last digit => exact .complete ((getLast?_toggleSign nonempty nonempty').trans last) digit
  | waiting notDigit =>
    rw [toggleSign_append nonempty]
    exact .waiting notDigit

theorem labels_toggleSign {n : Text} {rest : List Token} {ls : List Label} (numeral : Numeral n)
    (read : labels (.literal n :: rest) = .ok ls) :
    ∃ l others, ls = l :: others ∧
      labels (.literal (toggleSign n) :: rest) = .ok (l.opposite :: others) := by
  obtain ⟨l, others, hl, hrest, rfl⟩ := labels_cons_eq_ok_iff.1 read
  obtain ⟨v, hv, rfl⟩ := label_literal_eq_ok_iff.1 hl
  have opposite : parseLiteral (toggleSign n) = .ok (-v) := by
    unfold parseLiteral at hv ⊢
    rw [numeral.toggleSign.2]
    cases found : Decimal.read? n with
    | none => simp [found] at hv
    | some w =>
      simp only [found, Except.ok.injEq] at hv
      simp [hv]
  exact ⟨_, others, rfl, labels_cons_eq_ok_iff.2
    ⟨_, others, label_literal_eq_ok_iff.2 ⟨-v, opposite, rfl⟩, hrest, rfl⟩⟩

/-- With the other sign, an expression has the tree with the opposite first number. -/
theorem build_toggleSign {e : Text} {t : Tree} (built : build e = .ok t) :
    build (toggleSign e) = .ok t.negateFirst := by
  obtain ⟨tokens, ls, row, pending, read, rfl⟩ := build_eq_ok_iff_row.1 built
  obtain ⟨n, rest, rfl, rows⟩ := row.exists_cons
  have numeral : Numeral n := numeral_of_labels row read (by simp)
  have numeral' := numeral.toggleSign.1
  obtain ⟨l, others, rfl, read'⟩ := labels_toggleSign numeral read
  have row' := rows (toggleSign n) numeral'.rawLiteral
  have texts : toggleSign (Token.textOf (.literal n :: rest))
      = Token.textOf (.literal (toggleSign n) :: rest) := by
    simp only [Token.textOf, List.flatMap_cons, Token.text]
    exact toggleSign_append numeral.rawLiteral.ne_nil _
  have pending' := pending.toggleSign row.textOf_ne_nil (texts ▸ row'.textOf_ne_nil)
  rw [texts] at pending'
  exact build_eq_ok_iff_row.2 ⟨_, _, row', pending', read', (Tree.ofLabels_opposite l others).symm⟩

theorem exists_inorder_of_build {e : Text} {t : Tree} (built : build e = .ok t) :
    ∃ v rest, t.inorder = .number v :: rest := by
  obtain ⟨tokens, ls, row, -, read, rfl⟩ := build_eq_ok_iff_row.1 built
  obtain ⟨n, rest, rfl, -⟩ := row.exists_cons
  obtain ⟨l, others, hl, -, rfl⟩ := labels_cons_eq_ok_iff.1 read
  obtain ⟨v, -, rfl⟩ := label_literal_eq_ok_iff.1 hl
  exact ⟨v, others, Tree.inorder_ofLabels _⟩

end Expression

namespace Display

/-- A text that shows more than a minus sign and does not start with a zero gets the other sign. -/
theorem negate_text {d : Display} (start : d.text.head? ≠ some '0')
    (nonempty : toggleSign d.text ≠ []) : d.negate.text = toggleSign d.text := by
  obtain ⟨t⟩ := d
  cases t with
  | nil => rfl
  | cons c t =>
    have notZero : c ≠ '0' := fun zero => start (congrArg some zero)
    by_cases minus : c = '-'
    · subst minus
      have more : t ≠ [] := nonempty
      simp [negate, ofText, toggleSign, more]
    · simp [negate, toggleSign, notZero, minus]

/-- On a display that shows an expression and does not start with a zero, negation leaves an
expression, whose tree is the tree before with the opposite number in its leftmost leaf, at which the
labels begin. -/
theorem negate_opposes_first_number {d : Display} {t : Tree}
    (built : Expression.build d.text = .ok t) (start : d.text.head? ≠ some '0') :
    Expression.build d.negate.text = .ok t.negateFirst ∧
      ∃ v rest, t.inorder = .number v :: rest ∧ t.negateFirst.inorder = .number (-v) :: rest := by
  have toggled := Expression.build_toggleSign built
  have nonempty : toggleSign d.text ≠ [] := (Expression.build_eq_ok_iff.1 toggled).1
  obtain ⟨v, rest, labels⟩ := Expression.exists_inorder_of_build built
  refine ⟨negate_text start nonempty ▸ toggled, v, rest, labels, ?_⟩
  rw [Tree.inorder_negateFirst, labels]
  rfl

/-- The first number is deep in the tree, and the plus sign at the end is pending before and after. -/
theorem negate_opposes_first_number_pending :
    let d : Display := ⟨"-.5x3-2+".toList⟩
    (∃ t, Expression.build d.text = .ok t ∧ Expression.build d.negate.text = .ok t.negateFirst) ∧
      d.text.head? ≠ some '0' ∧ d.negate.text = ".5x3-2+".toList := by
  intro d
  have start : d.text.head? ≠ some '0' := by decide
  have ok : (Expression.build d.text).isOk := by decide +kernel
  obtain ⟨t, built⟩ := Expression.exists_build_of_isOk ok
  exact ⟨⟨t, built, (negate_opposes_first_number built start).1⟩, start, rfl⟩

end Display

end DeskCalc
