import Mathlib.Data.List.Induction
import DeskCalc.Proofs.Typing

/-! Which texts can go on to one that has tokens.  What the scanner has read tells of the rest only
through the literal that is open, so that a character is refused for good or not at all: the scanner
stops at the first character after which no text has tokens, and a text that it reads to the end lacks
no more than a last literal. -/

namespace DeskCalc

/-- The literal that is open after a character, its last character first, where `begun` is open before
it; none if the character cannot stand there. -/
def afterChar (begun : Text) (c : Char) : Option Text :=
  if continuesLiteral begun c then some (c :: begun)
  else if !begun.isEmpty && (Operator.ofSymbol? c).isSome then some [] else none

/-- The literal that is open after a text, if each of its characters can stand at its place. -/
def afterText (begun t : Text) : Option Text := t.foldlM afterChar begun

/-- The error at a character that cannot stand at its place. -/
def ParseError.refusal (c : Char) (position : Nat) (source : Text) : ParseError :=
  if KeypadChar c then .missingOperand c position source else .unsupported c position source

theorem afterText_concat (begun u : Text) (c : Char) :
    afterText begun (u ++ [c]) = (afterText begun u).bind (afterChar · c) := by
  simp [afterText, List.foldlM_append, bind]

theorem afterChar_digit (begun : Text) {c : Char} (digit : c.isDigit) :
    afterChar begun c = some (c :: begun) := if_pos (continuesLiteral_iff.2 (.inl digit))

/-! ### The scanner, character by character -/

/-- The scanner goes on after a character that can stand at its place, with the literal that is then
open. -/
theorem scan_of_afterChar {begun held : Text} {c : Char} (h : afterChar begun c = some held) :
    ∃ before, ∀ source position rest, scan source position begun (c :: rest)
      = (scan source (position + 1) held rest).map (before ++ ·) := by
  unfold afterChar at h
  split at h
  · next continues =>
    obtain rfl := Option.some.inj h
    refine ⟨[], fun source position rest => ?_⟩
    rw [scan, if_pos continues]
    cases scan source (position + 1) (c :: begun) rest <;> rfl
  · next ends =>
    split at h
    · next operator =>
      obtain rfl := Option.some.inj h
      simp only [Bool.and_eq_true, Bool.not_eq_true', Option.isSome_iff_exists] at operator
      obtain ⟨nonempty, o, symbol⟩ := operator
      refine ⟨[.literal begun.reverse, .operator o], fun source position rest => ?_⟩
      rw [scan, if_neg ends, symbol]
      simp only [nonempty, Bool.false_eq_true, if_false]
      cases scan source (position + 1) [] rest <;> rfl
    · cases h

theorem scan_of_afterChar_none {begun : Text} {c : Char} (h : afterChar begun c = none)
    (source : Text) (position : Nat) (rest : Text) :
    scan source position begun (c :: rest) = .error (.refusal c position source) := by
  unfold afterChar at h
  split at h
  · cases h
  · next ends =>
    rw [scan, if_neg ends, ParseError.refusal]
    cases symbol : Operator.ofSymbol? c with
    | none =>
      have foreign : ¬ KeypadChar c := by
        rintro (digit | point | ⟨o, rfl⟩)
        · exact ends (continuesLiteral_iff.2 (.inl digit))
        · exact ends (continuesLiteral_iff.2 (.inr (.inl point)))
        · simp at symbol
      rw [if_neg foreign]
    | some o =>
      have key : KeypadChar c := .inr (.inr ⟨o, Operator.ofSymbol?_eq_some.1 symbol⟩)
      have empty : begun.isEmpty := by
        by_contra nonempty
        rw [Bool.not_eq_true] at nonempty
        simp [nonempty, symbol] at h
      simp only [empty, if_true, if_pos key]

theorem scan_append {begun held u : Text} (h : afterText begun u = some held) :
    ∃ before, ∀ source position rest, scan source position begun (u ++ rest)
      = (scan source (position + u.length) held rest).map (before ++ ·) := by
  induction u generalizing begun with
  | nil =>
    obtain rfl := Option.some.inj h
    refine ⟨[], fun source position rest => ?_⟩
    show scan source position begun rest = (scan source position begun rest).map _
    cases scan source position begun rest <;> rfl
  | cons c u ih =>
    obtain ⟨middle, first, others⟩ := Option.bind_eq_some_iff.1 h
    obtain ⟨before, step⟩ := scan_of_afterChar first
    obtain ⟨between, run⟩ := ih others
    refine ⟨before ++ between, fun source position rest => ?_⟩
    rw [List.cons_append, step, run, List.length_cons, Nat.add_assoc, Nat.add_comm 1]
    cases scan source (position + (u.length + 1)) held rest with
    | error e => rfl
    | ok tokens => simp [Except.map]

/-- A text that is not read to the end has a first character that cannot stand at its place. -/
theorem exists_of_afterText_none {begun t : Text} (h : afterText begun t = none) :
    ∃ u c v held, t = u ++ c :: v ∧ afterText begun u = some held ∧ afterChar held c = none := by
  induction t generalizing begun with
  | nil => cases h
  | cons c t ih =>
    cases first : afterChar begun c with
    | none => exact ⟨[], c, t, begun, rfl, rfl, first⟩
    | some middle =>
      have others : afterText middle t = none := by
        rw [afterText, List.foldlM_cons, first] at h
        exact h
      obtain ⟨u, d, v, held, rfl, read, refused⟩ := ih others
      refine ⟨c :: u, d, v, held, rfl, ?_, refused⟩
      rw [afterText, List.foldlM_cons, first]
      exact read

/-! ### How scanning a text ends -/

theorem tokenize_of_refused {u v held : Text} {c : Char} (read : afterText [] u = some held)
    (refused : afterChar held c = none) :
    tokenize (u ++ c :: v) = .error (.refusal c u.length (u ++ c :: v)) := by
  obtain ⟨before, run⟩ := scan_append read
  rw [tokenize, run, scan_of_afterChar_none refused, Nat.zero_add]
  rfl

theorem tokenize_of_closed {s : Text} (read : afterText [] s = some []) :
    tokenize s = .error (.missingFinalOperand s) := by
  obtain ⟨before, run⟩ := scan_append read
  have whole := run s 0 []
  rw [List.append_nil] at whole
  rw [tokenize, whole]
  rfl

theorem exists_tokens_of_open {s held : Text} (read : afterText [] s = some held)
    (nonempty : held ≠ []) : ∃ tokens, tokenize s = .ok tokens := by
  obtain ⟨before, run⟩ := scan_append read
  have whole := run s 0 []
  rw [List.append_nil] at whole
  rw [tokenize, whole, scan, if_neg (by simpa using nonempty)]
  exact ⟨_, rfl⟩

/-- Some text that begins with this one has tokens. -/
def Extensible (s : Text) : Prop := ∃ rest tokens, tokenize (s ++ rest) = .ok tokens

/-- A text can go on exactly if it is read to the end: one more digit then makes it a text with
tokens. -/
theorem extensible_iff {s : Text} : Extensible s ↔ ∃ held, afterText [] s = some held := by
  constructor
  · rintro ⟨rest, tokens, scanned⟩
    cases read : afterText [] s with
    | some held => exact ⟨held, rfl⟩
    | none =>
      obtain ⟨u, c, v, held, rfl, before, refused⟩ := exists_of_afterText_none read
      rw [List.append_assoc, List.cons_append, tokenize_of_refused before refused] at scanned
      cases scanned
  · rintro ⟨held, read⟩
    have more : afterText [] (s ++ ['0']) = some ('0' :: held) := by
      rw [afterText_concat, read]
      exact afterChar_digit held (by decide)
    obtain ⟨tokens, scanned⟩ := exists_tokens_of_open more (by simp)
    exact ⟨['0'], tokens, scanned⟩

/-! ### The operator at the end of a text -/

/-- Whether a text ends with an operator; its characters are given from the last to the first.  A minus
sign opens a literal at the start and after an operator, and is no operator there. -/
def endsWithOperator : Text → Bool
  | [] => false
  | c :: before =>
    match Operator.ofSymbol? c with
    | none => false
    | some .minus => !before.isEmpty && !endsWithOperator before
    | some _ => true

def EndsWithOperator (s : Text) : Prop := endsWithOperator s.reverse = true

theorem endsWithOperator_concat_of_none {c : Char} (h : Operator.ofSymbol? c = none) (u : Text) :
    ¬ EndsWithOperator (u ++ [c]) := by
  simp [EndsWithOperator, endsWithOperator, h]

theorem endsWithOperator_concat_minus (u : Text) :
    EndsWithOperator (u ++ ['-']) ↔ ¬ (u = [] ∨ EndsWithOperator u) := by
  have minus : Operator.ofSymbol? '-' = some .minus := rfl
  simp [EndsWithOperator, endsWithOperator, minus]

theorem endsWithOperator_concat_symbol {o : Operator} (h : o ≠ .minus) (u : Text) :
    EndsWithOperator (u ++ [o.symbol]) := by
  cases o with
  | minus => exact absurd rfl h
  | plus => simp [EndsWithOperator, endsWithOperator, Operator.symbol, Operator.ofSymbol?]
  | div => simp [EndsWithOperator, endsWithOperator, Operator.symbol, Operator.ofSymbol?]
  | times => simp [EndsWithOperator, endsWithOperator, Operator.symbol, Operator.ofSymbol?]

/-- No literal is open at the start and after an operator. -/
theorem open_eq_nil_iff {s held : Text} (read : afterText [] s = some held) :
    held = [] ↔ s = [] ∨ EndsWithOperator s := by
  -- Whether a minus sign is an operator hangs on the text before it, so the induction takes characters
  -- off the end.
  induction s using List.reverseRecOn generalizing held with
  | nil =>
    obtain rfl := Option.some.inj read
    simp
  | append_singleton u c ih =>
    rw [afterText_concat] at read
    obtain ⟨begun, before, last⟩ := Option.bind_eq_some_iff.1 read
    have opens := ih before
    have nonempty : u ++ [c] ≠ [] := by simp
    simp only [nonempty, false_or]
    unfold afterChar at last
    split at last
    · next continues =>
      obtain rfl := Option.some.inj last
      simp only [reduceCtorEq, false_iff]
      rcases continuesLiteral_iff.1 continues with digit | rfl | ⟨rfl, rfl⟩
      · exact endsWithOperator_concat_of_none (Operator.ofSymbol?_digit digit) u
      · exact endsWithOperator_concat_of_none rfl u
      · rw [endsWithOperator_concat_minus, ← opens]
        exact not_not_intro rfl
    · split at last
      · next operator =>
        obtain rfl := Option.some.inj last
        simp only [true_iff]
        simp only [Bool.and_eq_true, Bool.not_eq_true', List.isEmpty_eq_false_iff,
          Option.isSome_iff_exists] at operator
        obtain ⟨inside, o, symbol⟩ := operator
        obtain rfl := Operator.ofSymbol?_eq_some.1 symbol
        by_cases minus : o = .minus
        · subst minus
          exact (endsWithOperator_concat_minus u).2 (fun h => inside (opens.2 h))
        · exact endsWithOperator_concat_symbol minus u
      · cases last

/-! ### Errors -/

namespace ParseError

/-- The position that an error tells. -/
def position? : ParseError → Option Nat
  | unsupported _ p _ => some p
  | missingOperand _ p _ => some p
  | _ => none

theorem position?_refusal (c : Char) (p : Nat) (source : Text) :
    (refusal c p source).position? = some p := by
  unfold refusal
  split <;> rfl

theorem message_refusal (c : Char) (p : Nat) (source : Text) :
    (refusal c p source).message
      = (if KeypadChar c then "Missing operand before ".toList else "Unsupported character ".toList)
        ++ Text.quoted [c] ++ " at position ".toList ++ Text.ofNat p ++ ": ".toList
        ++ Text.quoted source := by
  unfold refusal
  split <;> rfl

end ParseError

/-- The scanner stops at a character of the text. -/
def Stopped (s : Text) : Prop := ∃ e p, tokenize s = .error e ∧ e.position? = some p

theorem stopped_iff {s : Text} : Stopped s ↔ afterText [] s = none := by
  constructor
  · rintro ⟨e, p, stopped, position⟩
    cases read : afterText [] s with
    | none => rfl
    | some held =>
      by_cases closed : held = []
      · subst closed
        obtain rfl := Except.error.inj (stopped.symm.trans (tokenize_of_closed read))
        cases position
      · obtain ⟨tokens, scanned⟩ := exists_tokens_of_open read closed
        cases scanned.symm.trans stopped
  · intro unread
    obtain ⟨u, c, v, held, rfl, before, refused⟩ := exists_of_afterText_none unread
    exact ⟨_, _, tokenize_of_refused before refused, ParseError.position?_refusal _ _ _⟩

theorem not_stopped_iff {s : Text} : ¬ Stopped s ↔ Extensible s := by
  rw [stopped_iff, extensible_iff]
  exact Option.ne_none_iff_exists'

/-- An error that tells a position is the refusal of the first character after which no text has
tokens. -/
theorem exists_of_position {s : Text} {e : ParseError} {p : Nat} (stopped : tokenize s = .error e)
    (position : e.position? = some p) : ∃ u c v, s = u ++ c :: v ∧ p = u.length ∧
      e = .refusal c p s ∧ Extensible u ∧ ¬ Extensible (u ++ [c]) := by
  obtain ⟨u, c, v, held, rfl, before, refused⟩ :=
    exists_of_afterText_none (stopped_iff.1 ⟨e, p, stopped, position⟩)
  obtain rfl := Except.error.inj ((tokenize_of_refused before refused).symm.trans stopped)
  obtain rfl : u.length = p := by
    rw [ParseError.position?_refusal] at position
    exact Option.some.inj position
  refine ⟨u, c, v, rfl, rfl, rfl, extensible_iff.2 ⟨held, before⟩, ?_⟩
  rw [extensible_iff, afterText_concat, before]
  simp [refused]

theorem eq_missingFinalOperand {s : Text} {e : ParseError} (failed : tokenize s = .error e)
    (unplaced : e.position? = none) : afterText [] s = some [] ∧ e = .missingFinalOperand s := by
  cases read : afterText [] s with
  | none =>
    obtain ⟨e', p, stopped, position⟩ := stopped_iff.2 read
    obtain rfl := Except.error.inj (failed.symm.trans stopped)
    cases unplaced.symm.trans position
  | some held =>
    by_cases closed : held = []
    · subst closed
      exact ⟨rfl, Except.error.inj (failed.symm.trans (tokenize_of_closed read))⟩
    · obtain ⟨tokens, scanned⟩ := exists_tokens_of_open read closed
      cases scanned.symm.trans failed

theorem missingFinalOperand_iff {s : Text} :
    tokenize s = .error (.missingFinalOperand s) ↔ ¬ Stopped s ∧ (s = [] ∨ EndsWithOperator s) := by
  constructor
  · intro missing
    obtain ⟨read, -⟩ := eq_missingFinalOperand missing rfl
    exact ⟨not_stopped_iff.2 (extensible_iff.2 ⟨[], read⟩), (open_eq_nil_iff read).1 rfl⟩
  · rintro ⟨unstopped, ends⟩
    obtain ⟨held, read⟩ := extensible_iff.1 (not_stopped_iff.1 unstopped)
    obtain rfl := (open_eq_nil_iff read).2 ends
    exact tokenize_of_closed read

/-- An error at a position tells the first character after which no text has tokens, and what is wrong
with it: it is on no key of digits, operators and the point, or an operand is missing before it.  There
is such an error exactly if the text cannot go on to one with tokens.  A text without such an error has
no tokens exactly if it is empty or ends with an operator, and its error is that the last operand is
missing. -/
theorem tokenize_stops_earliest (s : Text) :
    (∀ e p, tokenize s = .error e → e.position? = some p →
      Extensible (s.take p) ∧ ¬ Extensible (s.take (p + 1)) ∧
        ∃ c, s[p]? = some c ∧
          e = (if KeypadChar c then .missingOperand c p s else .unsupported c p s) ∧
          e.message
            = (if KeypadChar c then "Missing operand before ".toList
                else "Unsupported character ".toList)
              ++ Text.quoted [c] ++ " at position ".toList ++ Text.ofNat p ++ ": ".toList
              ++ Text.quoted s) ∧
      (∀ e, tokenize s = .error e → e.position? = none → e = .missingFinalOperand s) ∧
      (tokenize s = .error (.missingFinalOperand s) ↔
        ¬ Stopped s ∧ (s = [] ∨ EndsWithOperator s)) ∧
      (¬ Stopped s ↔ Extensible s) := by
  refine ⟨?_, ?_, missingFinalOperand_iff, not_stopped_iff⟩
  · intro e p stopped position
    obtain ⟨u, c, v, rfl, rfl, rfl, before, refused⟩ := exists_of_position stopped position
    have front : (u ++ c :: v).take u.length = u := by simp
    have here : (u ++ c :: v).take (u.length + 1) = u ++ [c] := by
      rw [List.append_cons]
      exact List.take_left' (by simp)
    rw [front, here]
    exact ⟨before, refused, c, by simp, rfl, ParseError.message_refusal c _ _⟩
  · intro e failed unplaced
    exact (eq_missingFinalOperand failed unplaced).2

end DeskCalc
