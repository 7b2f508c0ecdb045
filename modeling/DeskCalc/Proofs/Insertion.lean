import DeskCalc.Expression.Building

/-! Building an expression in one pass against taking its tokens into a tree one by one.  Each token
becomes a checked node without operands, which is inserted from the root down.  Both ways give the same
tree or the same error, and neither fails but for the text. -/

namespace DeskCalc

namespace Expression

/-- Takes tokens into a tree one by one, each as a checked node without operands.  The first token has
the given number. -/
def insertTokens : Nat → Tree → List Token → Except BuildError Tree
  | _, t, [] => .ok t
  | number, t, token :: rest =>
    match nodeOf number token with
    | .error e => .error e
    | .ok (kind, value) =>
      match Node.make kind value .empty .empty with
      | .error e => .error (.arena (.refused e))
      | .ok n => insertTokens (number + 1) (t.insert n) rest

/-- The tree of an expression whose tokens are taken in one by one. -/
def buildByInsertion (e : Text) : Except BuildError Tree :=
  match tokenize (stripPending e) with
  | .error err => .error (.parse err)
  | .ok tokens => insertTokens 0 .empty tokens

theorem make_single (l : Label) : Node.make l.kind l.value? .empty .empty = .ok (.single l) := by
  cases l <;> rfl

theorem insertTokens_cons {number : Nat} {token : Token} {l : Label}
    (node : nodeOf number token = .ok (l.kind, l.value?)) (t : Tree) (rest : List Token) :
    insertTokens number t (token :: rest)
      = insertTokens (number + 1) (t.insert (.single l)) rest := by
  rw [insertTokens, node]
  simp only [make_single]

/-- A row of tokens is taken in as its labels are, up to the first literal that is no number. -/
theorem insertTokens_row {tokens : List Token} (row : Token.Row tokens) {number : Nat}
    (even : number % 2 = 0) (t : Tree) :
    insertTokens number t tokens = match labels tokens with
      | .ok ls => .ok (t.insertLabels ls)
      | .error e => .error (.parse e) := by
  induction row generalizing number t with
  | @literal u raw =>
    cases hl : label (.literal u) with
    | error e => simp [labels, insertTokens, nodeOf_literal even, hl]
    | ok l =>
      rw [insertTokens_cons (by rw [nodeOf_literal even, hl])]
      simp only [labels, hl]
      rfl
  | @operation u rest raw o row ih =>
    cases hl : label (.literal u) with
    | error e => simp [labels, insertTokens, nodeOf_literal even, hl]
    | ok l =>
      have ho : label (.operator o) = .ok (.operator o) := rfl
      rw [insertTokens_cons (by rw [nodeOf_literal even, hl]),
        insertTokens_cons (nodeOf_operator (show (number + 1) % 2 = 1 by omega) o),
        ih (show (number + 1 + 1) % 2 = 0 by omega)]
      simp only [labels, hl, ho]
      cases labels rest <;> rfl

theorem buildByInsertion_eq (e : Text) (nonempty : e ≠ []) : buildByInsertion e = build e := by
  rw [build_eq, if_neg (by simpa using nonempty), buildByInsertion]
  cases ht : tokenize (stripPending e) with
  | error err => rfl
  | ok tokens =>
    have row := (Token.tokenize_eq_ok_iff.1 ht).1
    simp only [insertTokens_row row (Nat.zero_mod 2), Tree.insertLabels_empty]
    cases labels tokens <;> rfl

/-- Building in one pass gives the tree or the error that taking in the tokens one by one gives.  It
gives a tree exactly when the text has tokens and each literal among them is a number, and every error
is one of the text. -/
theorem build_agrees_with_insertion (e : Text) (nonempty : e ≠ []) :
    build e = buildByInsertion e ∧
      ((∃ t, build e = .ok t) ↔ ∃ tokens, tokenize (stripPending e) = .ok tokens ∧
        ∀ t, .literal t ∈ tokens → ∃ v, parseLiteral t = .ok v) ∧
      ∀ err, build e = .error err → ∃ p, err = .parse p := by
  refine ⟨(buildByInsertion_eq e nonempty).symm, ?_, fun err => exists_parse_of_build⟩
  rw [exists_build_iff_tokens]
  exact and_iff_right nonempty

theorem build_agrees_with_insertion_mixed :
    let e := "2-3x4+5".toList
    e ≠ [] ∧ build e = buildByInsertion e ∧
      ((∃ t, build e = .ok t) ↔ ∃ tokens, tokenize (stripPending e) = .ok tokens ∧
        ∀ t, .literal t ∈ tokens → ∃ v, parseLiteral t = .ok v) ∧
      ∀ err, build e = .error err → ∃ p, err = .parse p := by
  intro e
  have nonempty : e ≠ [] := by decide
  exact ⟨nonempty, build_agrees_with_insertion e nonempty⟩

end Expression

end DeskCalc
