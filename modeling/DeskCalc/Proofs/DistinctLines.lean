import DeskCalc.Proofs.Calls
import DeskCalc.Proofs.Continuation
import DeskCalc.Proofs.Lines

/-! Lines that tell their expressions apart.  A line shows its expression as it is, before a mark
that may stand in the expression as well, and a message quotes the expression once more.  Still no
line can be read in two ways.  A result has no blank and no quote in it, so that the last blank of
its line stands before it, and every message but one ends with a quote.  Of two failures with one
line, the longer expression would go on after the shorter one with a blank.  The scanner stops at
that blank or before it, and the message quotes all that was scanned, so that it is no shorter than
the message for the shorter expression. -/

namespace DeskCalc

/-! ### The length of a quoted text -/

namespace Text

theorem quoteOf_cases (t : Text) : quoteOf t = '\'' ∨ quoteOf t = '"' := by
  unfold quoteOf
  split
  · exact .inr rfl
  · exact .inl rfl

theorem length_quoted (t : Text) :
    (quoted t).length = (t.flatMap (quotedChar (quoteOf t))).length + 2 := by
  simp [quoted]

theorem getLast?_quoted (t : Text) : (quoted t).getLast? = some (quoteOf t) := by
  rw [quoted, List.getLast?_concat]

/-- Only the enclosing quote is written otherwise than between other quotes. -/
theorem quotedChar_congr {p q c : Char} (hp : c ≠ p) (hq : c ≠ q) :
    quotedChar p c = quotedChar q c := by
  simp [quotedChar, hp, hq]

/-- A text that holds its enclosing quote holds both quotes, and so does a text it is a part of. -/
theorem quoteOf_eq_of_mem {t u : Text} (inside : quoteOf t ∈ t) (part : t ⊆ u) :
    quoteOf u = quoteOf t := by
  have both : '\'' ∈ t ∧ '"' ∈ t := by
    unfold quoteOf at inside
    split at inside
    · next single =>
      simp only [Bool.and_eq_true, Bool.not_eq_true', List.contains_eq_mem, decide_eq_true_eq,
        decide_eq_false_iff_not] at single
      exact absurd inside single.2
    · next mixed =>
      simp only [Bool.and_eq_true, Bool.not_eq_true', List.contains_eq_mem, decide_eq_true_eq,
        decide_eq_false_iff_not, not_and, not_not] at mixed
      exact ⟨inside, mixed inside⟩
  have single {x : Text} (h : '"' ∈ x) : quoteOf x = '\'' := by simp [quoteOf, h]
  rw [single both.2, single (part both.2)]

theorem length_quotedChar_le {t u : Text} (part : t ⊆ u) {c : Char} (hc : c ∈ t) :
    (quotedChar (quoteOf t) c).length ≤ (quotedChar (quoteOf u) c).length := by
  by_cases own : c = quoteOf t
  · rw [quoteOf_eq_of_mem (own ▸ hc) part]
  · by_cases other : c = quoteOf u
    · subst other
      rcases quoteOf_cases t with ht | ht <;> rcases quoteOf_cases u with hu | hu <;>
        rw [ht, hu] <;> decide
    · rw [quotedChar_congr own other]

/-- A part of a text is quoted at most at the length of the text. -/
theorem length_quoted_le {t u : Text} (part : t.Sublist u) : (quoted t).length ≤ (quoted u).length := by
  rw [length_quoted, length_quoted]
  refine Nat.add_le_add_right ?_ 2
  calc (t.flatMap (quotedChar (quoteOf t))).length
      ≤ (t.flatMap (quotedChar (quoteOf u))).length := by
        rw [List.length_flatMap, List.length_flatMap]
        exact List.sum_le_sum fun c hc => length_quotedChar_le part.subset hc
    _ ≤ (u.flatMap (quotedChar (quoteOf u))).length := (part.flatMap _).length_le

end Text

open Text

/-! ### Messages -/

namespace ParseError

theorem getLast?_message {p : ParseError} (h : p ≠ .emptyExpression) :
    ∃ t, p.message.getLast? = some (quoteOf t) := by
  have ends (what t : Text) : (what ++ quoted t).getLast? = some (quoteOf t) := by
    rw [List.getLast?_append, getLast?_quoted, Option.some_or]
  cases p with
  | emptyExpression => exact absurd rfl h
  | unsupported c n s => exact ⟨s, ends _ s⟩
  | missingOperand c n s => exact ⟨s, ends _ s⟩
  | missingFinalOperand s => exact ⟨s, ends _ s⟩
  | malformedNumber t => exact ⟨t, ends _ t⟩

theorem length_message_refusal (c : Char) (n : Nat) (s : Text) :
    39 + (quoted s).length ≤ (refusal c n s).message.length := by
  have what : 22 ≤ (if KeypadChar c then "Missing operand before ".toList
      else "Unsupported character ".toList).length := by split <;> decide
  have character := length_quoted [c]
  have marks : " at position ".toList.length = 13 ∧ ": ".toList.length = 2 := by decide
  rw [message_refusal]
  simp only [List.length_append]
  omega

theorem length_message_refusal_le (c : Char) (n : Nat) {s s' : Text} (part : s.Sublist s') :
    (refusal c n s).message.length ≤ (refusal c n s').message.length := by
  have := length_quoted_le part
  rw [message_refusal, message_refusal]
  simp only [List.length_append]
  omega

theorem length_message_missingFinalOperand (s : Text) :
    (missingFinalOperand s).message.length = 23 + (quoted s).length :=
  List.length_append

theorem length_message_malformedNumber (t : Text) :
    (malformedNumber t).message.length = 18 + (quoted t).length :=
  List.length_append

end ParseError

namespace Expression

theorem stripPending_prefix_self (e : Text) : stripPending e <+: e := by
  unfold stripPending
  repeat' split
  · exact List.prefix_rfl
  · exact List.dropLast_prefix e
  · exact List.prefix_rfl

theorem stripPending_append (t : Text) {u : Text} (nonempty : u ≠ []) :
    stripPending (t ++ u) = t ++ stripPending u := by
  obtain ⟨v, c, rfl⟩ := (List.eq_nil_or_concat u).resolve_left nonempty
  rw [List.concat_eq_append, ← List.append_assoc, stripPending_concat, stripPending_concat]
  split <;> simp

/-- Where the scanner stops at a character, the error is the refusal of that character. -/
theorem exists_refusal_of_build {e : Text} {p : ParseError} (fault : build e = .error (.parse p))
    (stopped : Stopped (stripPending e)) :
    tokenize (stripPending e) = .error p ∧ ∃ c n, p = .refusal c n (stripPending e) := by
  obtain ⟨q, n, scanned, position⟩ := stopped
  obtain ⟨_, ⟨rfl⟩, ⟨rfl, rfl⟩ | ⟨-, failed⟩ | ⟨-, tokens, succeeded, -⟩⟩ :=
    build_eq_error_iff.1 fault
  · cases scanned
    cases position
  · obtain rfl := Except.error.inj (scanned.symm.trans failed)
    obtain ⟨-, c, -, -, -, refusal, -⟩ := exists_of_position scanned position
    exact ⟨scanned, c, n, refusal⟩
  · cases scanned.symm.trans succeeded

/-- A text that is scanned to no more than an earlier text was has a message at least as long. -/
theorem length_message_le {e e' : Text} {p p' : ParseError} (fault : build e = .error (.parse p))
    (fault' : build e' = .error (.parse p')) (front : e <+: stripPending e')
    (stopped : Stopped (stripPending e')) : p.message.length ≤ p'.message.length := by
  obtain ⟨scanned', c', n', refusal'⟩ := exists_refusal_of_build fault' stopped
  have part := (stripPending_prefix_self e).trans front
  have long : 39 + (quoted (stripPending e')).length ≤ p'.message.length :=
    refusal' ▸ ParseError.length_message_refusal c' n' _
  obtain ⟨_, ⟨rfl⟩, first⟩ := build_eq_error_iff_firstFault.1 fault
  cases first with
  | empty =>
    have short : ParseError.emptyExpression.message.length = 16 := by decide
    omega
  | tokens nonempty scanned =>
    cases position : p.position? with
    -- What the first text is refused for comes first in the second as well.
    | some n =>
      obtain ⟨u, c, v, held, text, read, refused⟩ :=
        exists_of_afterText_none (stopped_iff.1 ⟨p, n, scanned, position⟩)
      obtain ⟨z, text'⟩ := part
      rw [text] at scanned text'
      rw [← text', List.append_assoc, List.cons_append] at scanned'
      rw [← Except.error.inj ((tokenize_of_refused read refused).symm.trans scanned),
        ← Except.error.inj ((tokenize_of_refused read refused).symm.trans scanned')]
      refine ParseError.length_message_refusal_le c _ ?_
      exact (List.Sublist.refl u).append ((List.sublist_append_left v z).cons_cons c)
    | none =>
      obtain ⟨-, rfl⟩ := eq_missingFinalOperand scanned position
      have short := ParseError.length_message_missingFinalOperand (stripPending e)
      have := length_quoted_le part.sublist
      omega
  | @literal _ t before after nonempty scanned numbers malformed =>
    obtain ⟨-, text⟩ := Token.tokenize_eq_ok_iff.1 scanned
    have inside : t.Sublist (stripPending e) := by
      rw [← text]
      simp [Token.textOf, Token.text]
    have short := ParseError.length_message_malformedNumber t
    have := length_quoted_le (inside.trans part.sublist)
    omega

end Expression

/-! ### Lines -/

/-- A text is cut at its last blank in one way. -/
theorem eq_of_last_blank {a b r s : Text} (h : a ++ ' ' :: r = b ++ ' ' :: s) (hr : ' ' ∉ r)
    (hs : ' ' ∉ s) : a = b ∧ r = s := by
  rcases List.append_eq_append_iff.1 h with ⟨u, rfl, hu⟩ | ⟨u, rfl, hu⟩
  · cases u with
    | nil => simpa using hu
    | cons c u =>
      obtain ⟨-, rfl⟩ := List.cons.inj hu
      simp at hr
  · cases u with
    | nil => simpa [eq_comm] using hu
    | cons c u =>
      obtain ⟨-, rfl⟩ := List.cons.inj hu
      simp at hs

theorem blank_not_mem_resultText (v : Float) : ' ' ∉ resultText v :=
  fun blank => absurd (written_resultText v ' ' blank) (by decide)

theorem not_resultChar_quoteOf (t : Text) : ¬ ResultChar (quoteOf t) := by
  rcases quoteOf_cases t with mark | mark <;> rw [mark] <;> decide

/-- The scanner does not get past a character that is on no key. -/
theorem stopped_of_foreign {s : Text} {c : Char} (hc : c ∈ s) (foreign : ¬ KeypadChar c) :
    Stopped s := by
  by_contra goesOn
  obtain ⟨rest, tokens, scanned⟩ := not_stopped_iff.1 goesOn
  obtain ⟨row, text⟩ := Token.tokenize_eq_ok_iff.1 scanned
  refine foreign (row.keypad c ?_)
  rw [text]
  exact List.mem_append_left _ hc

namespace Outcome

theorem line_of_value {e : Text} {v : Float} (value : calculate e = .ok v) :
    (compute e).line = (e ++ [' ', '=']) ++ ' ' :: resultText v := by
  rw [compute_eq_success_iff.2 value]
  simp [line, success, resultMark]

theorem line_of_fault {e : Text} {p : ParseError} (fault : Expression.build e = .error (.parse p)) :
    (compute e).line = e ++ (errorMark ++ p.message) := by
  rw [compute_of_build_error fault, ← List.append_assoc]
  rfl

/-- A result has no blank and does not end with a quote; a message ends with a quote, or what comes
before its last blank does not end with the sign of a result. -/
theorem line_value_ne_fault {e e' : Text} {v : Float} {p : ParseError} (value : calculate e = .ok v)
    (fault : Expression.build e' = .error (.parse p)) : (compute e).line ≠ (compute e').line := by
  rw [line_of_value value, line_of_fault fault]
  intro same
  by_cases empty : p = .emptyExpression
  · subst empty
    have words : e' ++ (errorMark ++ ParseError.emptyExpression.message)
        = (e' ++ " -> ERROR: Empty".toList) ++ ' ' :: "expression".toList := by
      rw [List.append_assoc]
      rfl
    obtain ⟨front, -⟩ := eq_of_last_blank (same.trans words) (blank_not_mem_resultText v) (by decide)
    have ends := congrArg List.getLast? front
    rw [List.getLast?_append, List.getLast?_append] at ends
    cases ends
  · obtain ⟨t, quote⟩ := ParseError.getLast?_message empty
    obtain ⟨c, last⟩ := Option.isSome_iff_exists.1 (List.getLast?_isSome.2 (resultText_ne_nil v))
    have left : (e ++ [' ', '='] ++ ' ' :: resultText v).getLast? = some c := by
      rw [List.append_cons, List.getLast?_append, last, Option.some_or]
    have right : (e' ++ (errorMark ++ p.message)).getLast? = some (quoteOf t) := by
      rw [← List.append_assoc, List.getLast?_append, quote, Option.some_or]
    obtain rfl : c = quoteOf t := Option.some.inj (left.symm.trans (same ▸ right))
    exact not_resultChar_quoteOf t (written_resultText v _ (List.mem_of_getLast? last))

theorem eq_of_line_of_values {e e' : Text} {v v' : Float} (value : calculate e = .ok v)
    (value' : calculate e' = .ok v') (same : (compute e).line = (compute e').line) : e = e' := by
  rw [line_of_value value, line_of_value value'] at same
  obtain ⟨front, -⟩ :=
    eq_of_last_blank same (blank_not_mem_resultText v) (blank_not_mem_resultText v')
  exact List.append_cancel_right front

theorem eq_of_line_of_faults {e e' : Text} {p p' : ParseError}
    (fault : Expression.build e = .error (.parse p)) (fault' : Expression.build e' = .error (.parse p'))
    (shorter : e.length ≤ e'.length) (same : (compute e).line = (compute e').line) : e = e' := by
  rw [line_of_fault fault, line_of_fault fault'] at same
  have front : e <+: e' := List.prefix_of_prefix_length_le (List.prefix_append e _)
    (same ▸ List.prefix_append e' _) shorter
  obtain ⟨w, rfl⟩ := front
  rw [List.append_assoc] at same
  have rest := List.append_cancel_left same
  have mark : errorMark = ' ' :: '-' :: "> ERROR: ".toList := by decide
  match w, rest with
  | [], _ => exact (List.append_nil e).symm
  | [c], rest =>
    rw [mark] at rest
    obtain ⟨-, second⟩ := List.cons.inj rest
    cases (List.cons.inj second).1
  | c :: d :: w, rest =>
    -- The longer text goes on with a blank, which is still there when it is scanned.
    obtain rfl : c = ' ' := by
      rw [mark] at rest
      exact ((List.cons.inj rest).1).symm
    have scanned : Expression.stripPending (e ++ ' ' :: d :: w)
        = e ++ ' ' :: Expression.stripPending (d :: w) := by
      rw [List.append_cons, Expression.stripPending_append _ (List.cons_ne_nil d w), ← List.append_cons]
    have stopped : Stopped (Expression.stripPending (e ++ ' ' :: d :: w)) :=
      stopped_of_foreign (c := ' ') (scanned ▸ by simp) (by decide)
    have longer := Expression.length_message_le fault fault' (scanned ▸ List.prefix_append e _) stopped
    have lengths := congrArg List.length rest
    simp only [List.length_append, List.length_cons] at lengths
    omega

/-- Every expression has a line, and the line tells which expression it is for, whether that has a value
or not.  The line of an expression with a value is never that of one without. -/
theorem lines_tell_expressions_apart :
    (∀ e, requestedExpression (.text e) = .ok e ∧ compute? e = .ok (compute e) ∧
        (compute e).line? = .ok (compute e).line) ∧
      Function.Injective (fun e => (compute e).line) ∧
      ∀ e e', (compute e).ok = true → (compute e').ok = false →
        (compute e).line ≠ (compute e').line := by
  refine ⟨fun e => ⟨rfl, compute?_eq e, ?_⟩, fun e e' same => ?_, fun e e' ok failed => ?_⟩
  · rcases compute_cases e with ⟨v, -, computed⟩ | ⟨p, -, computed⟩ <;> rw [computed] <;> rfl
  · rcases compute_cases e with ⟨v, value, -⟩ | ⟨p, fault, -⟩ <;>
      rcases compute_cases e' with ⟨v', value', -⟩ | ⟨p', fault', -⟩
    · exact eq_of_line_of_values value value' same
    · exact absurd same (line_value_ne_fault value fault')
    · exact absurd same.symm (line_value_ne_fault value' fault)
    · rcases Nat.le_total e.length e'.length with shorter | shorter
      · exact eq_of_line_of_faults fault fault' shorter same
      · exact (eq_of_line_of_faults fault' fault shorter same.symm).symm
  · rcases compute_cases e with ⟨v, value, -⟩ | ⟨p, -, computed⟩
    · rcases compute_cases e' with ⟨v', -, computed'⟩ | ⟨p', fault', -⟩
      · rw [computed'] at failed
        cases failed
      · exact line_value_ne_fault value fault'
    · rw [computed] at ok
      cases ok

end Outcome

end DeskCalc
