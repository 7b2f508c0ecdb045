import DeskCalc.Expression
import DeskCalc.Token.Row
import DeskCalc.Tree.Order
import DeskCalc.Tree.Placement

/-! What building an expression comes to.  The arena never breaks down on the tokens of a text: the tree
is that of their labels, taken in from left to right, and the only errors are those of the text itself.
A tree that was built is complete, and so it has a value. -/

namespace DeskCalc

namespace Expression

/-- The label that a token puts into the tree. -/
def label : Token → Except ParseError Label
  | .literal t =>
    match parseLiteral t with
    | .ok v => .ok (.number v)
    | .error e => .error e
  | .operator o => .ok (.operator o)

/-- The labels of tokens; the leftmost literal that is no number is the error. -/
def labels : List Token → Except ParseError (List Label)
  | [] => .ok []
  | token :: rest =>
    match label token with
    | .error e => .error e
    | .ok l =>
      match labels rest with
      | .error e => .error e
      | .ok ls => .ok (l :: ls)

theorem labels_cons_eq_ok_iff {token : Token} {rest : List Token} {ls : List Label} :
    labels (token :: rest) = .ok ls ↔
      ∃ l others, label token = .ok l ∧ labels rest = .ok others ∧ ls = l :: others := by
  rw [labels]
  cases label token with
  | error e => simp
  | ok l => cases labels rest <;> simp [eq_comm]

theorem labels_cons_eq_error_iff {token : Token} {rest : List Token} {e : ParseError} :
    labels (token :: rest) = .error e ↔
      label token = .error e ∨ (∃ l, label token = .ok l) ∧ labels rest = .error e := by
  rw [labels]
  cases label token with
  | error e => simp
  | ok l => cases labels rest <;> simp

theorem label_literal_eq_error_iff {t : Text} {e : ParseError} :
    label (.literal t) = .error e ↔ parseLiteral t = .error e := by
  rw [label]
  cases parseLiteral t <;> simp

theorem label_literal_eq_ok_iff {t : Text} {l : Label} :
    label (.literal t) = .ok l ↔ ∃ v, parseLiteral t = .ok v ∧ l = .number v := by
  rw [label]
  cases parseLiteral t <;> simp [eq_comm]

theorem exists_labels_iff {tokens : List Token} :
    (∃ ls, labels tokens = .ok ls) ↔ ∀ t, .literal t ∈ tokens → ∃ v, parseLiteral t = .ok v := by
  induction tokens with
  | nil => simp [labels]
  | cons token rest ih =>
    simp only [labels_cons_eq_ok_iff, List.mem_cons]
    constructor
    · rintro ⟨_, l, others, hl, read, rfl⟩ t (rfl | ht)
      · obtain ⟨v, hv, -⟩ := label_literal_eq_ok_iff.1 hl
        exact ⟨v, hv⟩
      · exact ih.1 ⟨others, read⟩ t ht
    · intro h
      obtain ⟨others, read⟩ := ih.2 fun t ht => h t (.inr ht)
      cases token with
      | operator o => exact ⟨_, _, others, rfl, read, rfl⟩
      | literal t =>
        obtain ⟨v, hv⟩ := h t (.inl rfl)
        exact ⟨_, _, others, label_literal_eq_ok_iff.2 ⟨v, hv, rfl⟩, read, rfl⟩

/-- The error of labels is that of the leftmost literal that is no number. -/
theorem labels_eq_error_iff {tokens : List Token} {e : ParseError} :
    labels tokens = .error e ↔ ∃ before t after, tokens = before ++ .literal t :: after ∧
      (∀ u, .literal u ∈ before → ∃ v, parseLiteral u = .ok v) ∧ parseLiteral t = .error e := by
  constructor
  · intro h
    induction tokens with
    | nil => simp [labels] at h
    | cons token rest ih =>
      rcases labels_cons_eq_error_iff.1 h with bad | ⟨⟨l, good⟩, later⟩
      · cases token with
        | operator o => exact absurd bad (by simp [label])
        | literal t => exact ⟨[], t, rest, rfl, by simp, label_literal_eq_error_iff.1 bad⟩
      · obtain ⟨before, t, after, rfl, numbers, bad⟩ := ih later
        refine ⟨token :: before, t, after, rfl, fun u hu => ?_, bad⟩
        rcases List.mem_cons.1 hu with rfl | hu
        · obtain ⟨v, hv, -⟩ := label_literal_eq_ok_iff.1 good
          exact ⟨v, hv⟩
        · exact numbers u hu
  · rintro ⟨before, t, after, rfl, numbers, bad⟩
    induction before with
    | nil => exact labels_cons_eq_error_iff.2 (.inl (label_literal_eq_error_iff.2 bad))
    | cons token before ih =>
      refine labels_cons_eq_error_iff.2 (.inr ⟨?_, ih fun u hu => numbers u (by simp [hu])⟩)
      cases token with
      | operator o => exact ⟨_, rfl⟩
      | literal u =>
        obtain ⟨v, hv⟩ := numbers u (by simp)
        exact ⟨_, label_literal_eq_ok_iff.2 ⟨v, hv, rfl⟩⟩

theorem nodeOf_literal {number : Nat} (even : number % 2 = 0) (t : Text) :
    nodeOf number (.literal t) = match label (.literal t) with
      | .ok l => .ok (l.kind, l.value?)
      | .error e => .error (.parse e) := by
  rw [nodeOf, if_pos even, label, Token.text]
  cases parseLiteral t <;> rfl

theorem nodeOf_operator {number : Nat} (odd : number % 2 = 1) (o : Operator) :
    nodeOf number (.operator o) = .ok ((Label.operator o).kind, (Label.operator o).value?) := by
  rw [nodeOf, if_neg (by omega), Token.text, Kind.ofSymbol, Operator.ofSymbol?_symbol]
  rfl

theorem placeTokens_cons {number : Nat} {token : Token} {l : Label} {a : Arena} {s : Spine}
    (node : nodeOf number token = .ok (l.kind, l.value?)) (h : a.Carries s) (rest : List Token) :
    ∃ a', a'.Carries (s.push l) ∧
      placeTokens number a (token :: rest) = placeTokens (number + 1) a' rest := by
  obtain ⟨a', placed, carries⟩ := h.place l
  refine ⟨a', carries, ?_⟩
  rw [placeTokens, node]
  simp only [placed]

/-- The nodes of tokens are those of labels; the first token has the given number. -/
inductive Labelled : Nat → List Token → List Label → Prop
  | nil (number : Nat) : Labelled number [] []
  | cons {number : Nat} {token : Token} {l : Label} {rest : List Token} {ls : List Label}
      (node : nodeOf number token = .ok (l.kind, l.value?)) (others : Labelled (number + 1) rest ls) :
      Labelled number (token :: rest) (l :: ls)

theorem labelled_row {tokens : List Token} (row : Token.Row tokens) {ls : List Label}
    (read : labels tokens = .ok ls) {number : Nat} (even : number % 2 = 0) : Labelled number tokens ls := by
  induction row generalizing ls number with
  | literal raw =>
    obtain ⟨l, others, hl, rest, rfl⟩ := labels_cons_eq_ok_iff.1 read
    obtain rfl := Except.ok.inj rest
    exact .cons (by rw [nodeOf_literal even, hl]) (.nil _)
  | operation raw o row ih =>
    -- A literal and the operator after it are taken together, so that the number stays even.
    obtain ⟨l, after, hl, second, rfl⟩ := labels_cons_eq_ok_iff.1 read
    obtain ⟨l', others, ho, later, rfl⟩ := labels_cons_eq_ok_iff.1 second
    obtain rfl : Label.operator o = l' := Except.ok.inj ho
    have odd : (number + 1) % 2 = 1 := by omega
    have operator := Labelled.cons (nodeOf_operator odd o) (ih later (by omega))
    exact .cons (by rw [nodeOf_literal even, hl]) operator

/-- Tokens are placed as their labels are pushed. -/
theorem Labelled.place {number : Nat} {tokens : List Token} {ls : List Label}
    (h : Labelled number tokens ls) {a : Arena} {s : Spine} (carries : a.Carries s) :
    ∃ a', placeTokens number a tokens = .ok a' ∧ a'.Carries (ls.foldl Spine.push s) := by
  induction h generalizing a s with
  | nil => exact ⟨a, rfl, carries⟩
  | @cons _ _ _ rest _ node others ih =>
    obtain ⟨a₁, carries₁, placed⟩ := placeTokens_cons node carries rest
    rw [placed]
    exact ih carries₁

/-- The first literal of a row that is no number ends the placing. -/
theorem placeTokens_eq_error {tokens : List Token} (row : Token.Row tokens) {e : ParseError}
    (bad : labels tokens = .error e) {number : Nat} (even : number % 2 = 0) {a : Arena} {s : Spine}
    (h : a.Carries s) : placeTokens number a tokens = .error (.parse e) := by
  induction row generalizing number a s with
  | literal raw =>
    rcases labels_cons_eq_error_iff.1 bad with hl | ⟨-, none⟩
    · simp [placeTokens, nodeOf_literal even, hl]
    · cases none
  | @operation t rest raw o row ih =>
    rcases labels_cons_eq_error_iff.1 bad with hl | ⟨⟨l, hl⟩, later⟩
    · simp [placeTokens, nodeOf_literal even, hl]
    · have bad : labels rest = .error e :=
        ((labels_cons_eq_error_iff.1 later).resolve_left fun none => by cases none).2
      obtain ⟨a₁, carries₁, placed₁⟩ :=
        placeTokens_cons (by rw [nodeOf_literal even, hl]) h (.operator o :: rest)
      have odd : (number + 1) % 2 = 1 := by omega
      obtain ⟨a₂, carries₂, placed₂⟩ := placeTokens_cons (nodeOf_operator odd o) carries₁ rest
      rw [placed₁, placed₂]
      exact ih bad (by omega) carries₂

theorem alternating_labels {tokens : List Token} (row : Token.Row tokens) {ls : List Label}
    (h : labels tokens = .ok ls) : Label.Alternating ls := by
  induction row generalizing ls with
  | literal raw =>
    obtain ⟨l, others, hl, rest, rfl⟩ := labels_cons_eq_ok_iff.1 h
    obtain ⟨v, -, rfl⟩ := label_literal_eq_ok_iff.1 hl
    obtain rfl := Except.ok.inj rest
    trivial
  | operation raw o row ih =>
    obtain ⟨l, after, hl, read, rfl⟩ := labels_cons_eq_ok_iff.1 h
    obtain ⟨v, -, rfl⟩ := label_literal_eq_ok_iff.1 hl
    obtain ⟨l', others, ho, read', rfl⟩ := labels_cons_eq_ok_iff.1 read
    obtain rfl := Except.ok.inj ho
    show Label.Alternating others
    exact ih read'

theorem complete_ofLabels {ls : List Label} (h : Label.Alternating ls) :
    (Tree.ofLabels ls).Complete := by
  rw [(Tree.rankOrdered_ofLabels ls).complete_iff, Tree.inorder_ofLabels]
  exact h

/-- Building reads the tokens, then their labels, and takes the labels in from left to right. -/
theorem build_eq (e : Text) :
    build e =
      if e.isEmpty then .error (.parse .emptyExpression)
      else match tokenize (stripPending e) with
        | .error err => .error (.parse err)
        | .ok tokens => match labels tokens with
          | .error err => .error (.parse err)
          | .ok ls => .ok (Tree.ofLabels ls) := by
  unfold build
  split
  · rfl
  · cases ht : tokenize (stripPending e) with
    | error err => rfl
    | ok tokens =>
      have row := (Token.tokenize_eq_ok_iff.1 ht).1
      cases hl : labels tokens with
      | error err =>
        have placed := placeTokens_eq_error row hl (Nat.zero_mod 2) Arena.carries_empty
        simp [placed, hl]
      | ok ls =>
        have labelled := labelled_row row hl (Nat.zero_mod 2)
        obtain ⟨a, placed, carries⟩ := labelled.place Arena.carries_empty
        have complete := complete_ofLabels (alternating_labels row hl)
        have nonempty : ls.foldl Spine.push [] ≠ [] := by
          intro closed
          rw [Tree.ofLabels, closed] at complete
          exact complete
        have frozen : a.freeze = .ok (Tree.ofLabels ls) := carries.freeze nonempty complete.valid
        simp [placed, frozen, hl]

theorem build_eq_ok_iff {e : Text} {t : Tree} :
    build e = .ok t ↔ e ≠ [] ∧ ∃ tokens ls, tokenize (stripPending e) = .ok tokens ∧
      labels tokens = .ok ls ∧ t = Tree.ofLabels ls := by
  rw [build_eq]
  cases e with
  | nil => simp
  | cons c e =>
    cases tokenize (stripPending (c :: e)) with
    | error err => simp
    | ok tokens => cases hl : labels tokens <;> simp [hl, eq_comm]

/-- An expression has a tree when it has tokens of which each literal is a number. -/
theorem exists_build_iff_tokens {e : Text} :
    (∃ t, build e = .ok t) ↔ e ≠ [] ∧ ∃ tokens, tokenize (stripPending e) = .ok tokens ∧
      ∀ t, .literal t ∈ tokens → ∃ v, parseLiteral t = .ok v := by
  simp only [build_eq_ok_iff]
  constructor
  · rintro ⟨t, nonempty, tokens, ls, scanned, read, -⟩
    exact ⟨nonempty, tokens, scanned, exists_labels_iff.1 ⟨ls, read⟩⟩
  · rintro ⟨nonempty, tokens, scanned, numbers⟩
    obtain ⟨ls, read⟩ := exists_labels_iff.2 numbers
    exact ⟨_, nonempty, tokens, ls, scanned, read, rfl⟩

/-- The error of an expression is that of the first stage that fails. -/
theorem build_eq_error_iff {e : Text} {err : BuildError} :
    build e = .error err ↔ ∃ p, err = .parse p ∧ (e = [] ∧ p = .emptyExpression ∨
      e ≠ [] ∧ tokenize (stripPending e) = .error p ∨
      e ≠ [] ∧ ∃ tokens, tokenize (stripPending e) = .ok tokens ∧ labels tokens = .error p) := by
  rw [build_eq]
  cases e with
  | nil => simp [eq_comm]
  | cons c e =>
    cases tokenize (stripPending (c :: e)) with
    | error p => simp [eq_comm]
    | ok tokens => cases hl : labels tokens <;> simp [hl, eq_comm]

theorem exists_parse_of_build {e : Text} {err : BuildError} (h : build e = .error err) :
    ∃ p, err = .parse p := by
  obtain ⟨p, rfl, -⟩ := build_eq_error_iff.1 h
  exact ⟨p, rfl⟩

theorem complete_of_build {e : Text} {t : Tree} (h : build e = .ok t) : t.Complete := by
  obtain ⟨_, tokens, ls, scanned, read, rfl⟩ := build_eq_ok_iff.1 h
  exact complete_ofLabels (alternating_labels (Token.tokenize_eq_ok_iff.1 scanned).1 read)

end Expression

theorem exists_evaluate_of_build {e : Text} {t : Tree} (h : Expression.build e = .ok t) :
    ∃ v, t.evaluate = .ok v := by
  rw [Tree.evaluate_eq_value]
  exact (Expression.complete_of_build h).exists_value

/-- An expression has a value or an error of its text. -/
theorem calculate_cases (e : Text) :
    (∃ t v, Expression.build e = .ok t ∧ t.evaluate = .ok v ∧ calculate e = .ok v) ∨
      ∃ p, Expression.build e = .error (.parse p) ∧ calculate e = .error (.build (.parse p)) := by
  unfold calculate
  cases h : Expression.build e with
  | error err =>
    obtain ⟨p, rfl⟩ := Expression.exists_parse_of_build h
    exact .inr ⟨p, rfl, rfl⟩
  | ok t =>
    obtain ⟨v, hv⟩ := exists_evaluate_of_build h
    exact .inl ⟨t, v, rfl, hv, by simp [hv]⟩

end DeskCalc
