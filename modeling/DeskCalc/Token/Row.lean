import DeskCalc.Token

/-! Rows of tokens: raw literals and operators in turn, a literal first and last.  The scanner finds
exactly the row whose characters are the text, if there is one. -/

namespace DeskCalc

/-- A literal that was not yet read as a number: a digit, a point or a sign, and then digits and
points. -/
def RawLiteral : Text → Prop
  | [] => False
  | c :: rest => (c.isDigit ∨ c = '.' ∨ c = '-') ∧ ∀ d ∈ rest, d.isDigit ∨ d = '.'

theorem RawLiteral.ne_nil {t : Text} (h : RawLiteral t) : t ≠ [] := by
  rintro rfl
  exact h

theorem continuesLiteral_iff {begun : Text} {c : Char} :
    continuesLiteral begun c ↔ c.isDigit ∨ c = '.' ∨ begun = [] ∧ c = '-' := by
  simp [continuesLiteral, or_assoc]

theorem not_continuesLiteral_symbol {begun : Text} (h : begun ≠ []) (o : Operator) :
    ¬ continuesLiteral begun o.symbol := by
  rw [continuesLiteral_iff]
  simp only [h, false_and, or_false]
  cases o <;> decide

/-- An open literal, the last character first: nothing yet, or a raw literal. -/
def OpenLiteral (begun : Text) : Prop := begun = [] ∨ RawLiteral begun.reverse

theorem OpenLiteral.cons {begun : Text} {c : Char} (h : OpenLiteral begun)
    (hc : continuesLiteral begun c) : OpenLiteral (c :: begun) := by
  rw [continuesLiteral_iff] at hc
  right
  rw [List.reverse_cons]
  rcases h with rfl | raw
  · simpa [RawLiteral] using hc
  · cases hb : begun.reverse with
    | nil => rw [hb] at raw; exact raw.elim
    | cons first others =>
      rw [hb] at raw
      have begun_ne : begun ≠ [] := by
        rintro rfl
        simp at hb
      refine ⟨raw.1, fun d hd => ?_⟩
      rcases List.mem_append.1 hd with hd | hd
      · exact raw.2 d hd
      · obtain rfl : d = c := by simpa using hd
        simpa [begun_ne] using hc

namespace Token

/-- Raw literals and operators in turn, a literal first and last. -/
inductive Row : List Token → Prop
  | literal {t : Text} (raw : RawLiteral t) : Row [.literal t]
  | operation {t : Text} {rest : List Token} (raw : RawLiteral t) (o : Operator)
      (row : Row rest) : Row (.literal t :: .operator o :: rest)

/-- The characters of tokens one after another. -/
def textOf (tokens : List Token) : Text := tokens.flatMap text

/-- What the scanner finds is a row, and its characters are those that were scanned. -/
theorem row_of_scan {source rest begun : Text} {position : Nat} {tokens : List Token}
    (h : scan source position begun rest = .ok tokens) (hb : OpenLiteral begun) :
    Row tokens ∧ textOf tokens = begun.reverse ++ rest := by
  induction rest generalizing position begun tokens with
  | nil =>
    unfold scan at h
    split at h
    · exact absurd h (by simp)
    · next nonempty =>
      obtain rfl := Except.ok.inj h
      have raw := hb.resolve_left (by simpa using nonempty)
      exact ⟨.literal raw, by simp [textOf, text]⟩
  | cons c rest ih =>
    unfold scan at h
    split at h
    · next continues =>
      obtain ⟨row, texts⟩ := ih h (hb.cons continues)
      exact ⟨row, by simpa using texts⟩
    · split at h
      · exact absurd h (by simp)
      · next o symbol =>
        obtain rfl := Operator.ofSymbol?_eq_some.1 symbol
        split at h
        · exact absurd h (by simp)
        · next nonempty =>
          have raw := hb.resolve_left (by simpa using nonempty)
          split at h
          · next tokens' scanned =>
            obtain rfl := Except.ok.inj h
            obtain ⟨row, texts⟩ := ih scanned (.inl rfl)
            exact ⟨.operation raw o row, by simpa [textOf, text] using texts⟩
          · exact absurd h (by simp)

theorem scan_continue {source rest begun : Text} {position : Nat} {t : Text} (hb : begun ≠ [])
    (ht : ∀ d ∈ t, d.isDigit ∨ d = '.') :
    scan source position begun (t ++ rest)
      = scan source (position + t.length) (t.reverse ++ begun) rest := by
  induction t generalizing position begun with
  | nil => rfl
  | cons c t ih =>
    have continues : continuesLiteral begun c := by
      rw [continuesLiteral_iff]
      exact (ht c (by simp)).imp_right .inl
    rw [List.cons_append, scan, if_pos continues, ih (by simp) fun d hd => ht d (by simp [hd])]
    simp [Nat.add_assoc, Nat.add_comm 1]

theorem scan_literal {source rest : Text} {position : Nat} {t : Text} (raw : RawLiteral t) :
    scan source position [] (t ++ rest) = scan source (position + t.length) t.reverse rest := by
  cases t with
  | nil => exact raw.elim
  | cons c t =>
    have continues : continuesLiteral [] c := by
      rw [continuesLiteral_iff]
      simpa using raw.1
    rw [List.cons_append, scan, if_pos continues, scan_continue (by simp) raw.2]
    simp [Nat.add_assoc, Nat.add_comm 1]

theorem Row.scan {tokens : List Token} (row : Row tokens) (source : Text) (position : Nat) :
    scan source position [] (textOf tokens) = .ok tokens := by
  induction row generalizing position with
  | @literal t raw =>
    have texts : textOf [.literal t] = t ++ [] := rfl
    rw [texts, scan_literal raw, DeskCalc.scan]
    simp [raw.ne_nil]
  | @operation t rest raw o row ih =>
    have texts : textOf (.literal t :: .operator o :: rest) = t ++ o.symbol :: textOf rest := by
      simp [textOf, text]
    have begun : t.reverse ≠ [] := by simpa using raw.ne_nil
    rw [texts, scan_literal raw, DeskCalc.scan, if_neg (not_continuesLiteral_symbol begun o),
      Operator.ofSymbol?_symbol]
    simp [raw.ne_nil, ih]

/-- The tokens of a text are the row with its characters. -/
theorem tokenize_eq_ok_iff {s : Text} {tokens : List Token} :
    tokenize s = .ok tokens ↔ Row tokens ∧ textOf tokens = s := by
  constructor
  · intro h
    simpa using row_of_scan h (.inl rfl)
  · rintro ⟨row, rfl⟩
    exact row.scan _ 0

end Token

end DeskCalc
