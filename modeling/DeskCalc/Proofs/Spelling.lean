import DeskCalc.Token.Row

/-! Tokens as the texts they are written with.  Raw literals and operators that take turns are put
together to one text, and the scanner cuts that text into the same texts again, so that there is one way
only to read a run of minus signs. -/

namespace DeskCalc

/-- Texts of tokens: raw literals at the even places, single operators at the odd ones, and a literal
last. -/
structure Spelt (ts : List Text) : Prop where
  odd : ts.length % 2 = 1
  literal : ∀ i t, ts[i]? = some t → i % 2 = 0 → RawLiteral t
  operator : ∀ i t, ts[i]? = some t → i % 2 = 1 → ∃ o : Operator, t = [o.symbol]

namespace Spelt

theorem not_nil : ¬ Spelt [] := by
  intro h
  exact absurd h.odd (by decide)

theorem singleton {t : Text} (raw : RawLiteral t) : Spelt [t] where
  odd := rfl
  literal := by
    intro i u hu _
    obtain rfl : t = u := by
      cases i with
      | zero => simpa using hu
      | succ i => simp at hu
    exact raw
  operator := by
    intro i u hu place
    cases i with
    | zero => exact absurd place (by decide)
    | succ i => simp at hu

theorem head {t : Text} {ts : List Text} (h : Spelt (t :: ts)) : RawLiteral t :=
  h.literal 0 t rfl rfl

theorem cons {t : Text} {ts : List Text} (raw : RawLiteral t) (o : Operator) (h : Spelt ts) :
    Spelt (t :: [o.symbol] :: ts) where
  odd := by
    have := h.odd
    simp only [List.length_cons]
    omega
  literal := by
    intro i u hu place
    match i with
    | 0 =>
      obtain rfl : t = u := by simpa using hu
      exact raw
    | 1 => exact absurd place (by decide)
    | i + 2 => exact h.literal i u (by simpa using hu) (by omega)
  operator := by
    intro i u hu place
    match i with
    | 0 => exact absurd place (by decide)
    | 1 => exact ⟨o, by simpa [eq_comm] using hu⟩
    | i + 2 => exact h.operator i u (by simpa using hu) (by omega)

theorem second {t u : Text} {ts : List Text} (h : Spelt (t :: u :: ts)) :
    ∃ o : Operator, u = [o.symbol] := h.operator 1 u rfl rfl

theorem tail {t u : Text} {ts : List Text} (h : Spelt (t :: u :: ts)) : Spelt ts where
  odd := by
    have := h.odd
    simp only [List.length_cons] at this
    omega
  literal i v hv place := h.literal (i + 2) v (by simpa using hv) (by omega)
  operator i v hv place := h.operator (i + 2) v (by simpa using hv) (by omega)

end Spelt

namespace Token

theorem Row.spelt {tokens : List Token} (row : Row tokens) : Spelt (tokens.map text) := by
  induction row with
  | literal raw => exact .singleton raw
  | operation raw o row ih => exact ih.cons raw o

/-- Texts of tokens are those of a row.  The place of a text tells whether it is a literal or an
operator, which `-` alone would not. -/
theorem exists_row_of_spelt : ∀ {ts : List Text}, Spelt ts → ∃ tokens, Row tokens ∧ tokens.map text = ts
  | [], h => absurd h Spelt.not_nil
  | [t], h => ⟨[.literal t], .literal h.head, rfl⟩
  | t :: u :: ts, h => by
    obtain ⟨o, rfl⟩ := h.second
    obtain ⟨tokens, row, rfl⟩ := exists_row_of_spelt h.tail
    exact ⟨.literal t :: .operator o :: tokens, .operation h.head o row, rfl⟩

/-- The scanner undoes putting texts of tokens together: the texts of what it finds are texts of tokens
and give the whole text, and from texts of tokens put together it finds just these. -/
theorem tokenize_inverts_concatenation (s : Text) (ts : List Text) :
    (∃ tokens, tokenize s = .ok tokens ∧ tokens.map text = ts) ↔ Spelt ts ∧ ts.flatten = s := by
  constructor
  · rintro ⟨tokens, scanned, rfl⟩
    obtain ⟨row, texts⟩ := tokenize_eq_ok_iff.1 scanned
    exact ⟨row.spelt, texts⟩
  · rintro ⟨spelt, rfl⟩
    obtain ⟨tokens, row, rfl⟩ := exists_row_of_spelt spelt
    exact ⟨tokens, tokenize_eq_ok_iff.2 ⟨row, rfl⟩, rfl⟩

/-- Of four minus signs the first and the third are operators; the others open literals. -/
example : (tokenize "3----4".toList).map (List.map text)
    = .ok ["3".toList, "-".toList, "-".toList, "-".toList, "-4".toList] := rfl

end Token

end DeskCalc
