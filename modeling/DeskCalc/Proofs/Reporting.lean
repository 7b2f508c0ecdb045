import DeskCalc.Field

/-! Evaluating a request always ends with an outcome.  The outcome has a result or an error and never
both: the value of the tree when the expression has one, and otherwise what is wrong with the text. -/

namespace DeskCalc

/-- The fields of an outcome pass their checks; what it does not have is not offered. -/
theorem Outcome.ofFields_self (o : Outcome) :
    Outcome.ofFields (.text o.expression) (o.result.elim .missing .number)
      (o.error.elim .missing .text) = .ok o := by
  obtain ⟨e, r, m⟩ := o
  cases r <;> cases m <;> rfl

theorem compute?_of_build {e : Text} {t : Tree} {v : Float} (built : Expression.build e = .ok t)
    (value : t.evaluate = .ok v) : compute? e = .ok (.success e v) := by
  have calculated : calculate e = .ok v := by simp only [calculate, built, value]
  simp only [compute?, calculated]

theorem compute?_of_build_error {e : Text} {p : ParseError}
    (fault : Expression.build e = .error (.parse p)) : compute? e = .ok (.failure e p.message) := by
  have calculated : calculate e = .error (.build (.parse p)) := by simp only [calculate, fault]
  simp only [compute?, calculated]
  rfl

theorem compute_of_build_error {e : Text} {p : ParseError}
    (fault : Expression.build e = .error (.parse p)) : compute e = .failure e p.message :=
  Except.ok.inj ((compute?_eq e).symm.trans (compute?_of_build_error fault))

theorem compute_cases (e : Text) :
    (∃ v, calculate e = .ok v ∧ compute e = .success e v) ∨
      ∃ p, Expression.build e = .error (.parse p) ∧ compute e = .failure e p.message := by
  rcases calculate_cases e with ⟨t, v, built, value, calculated⟩ | ⟨p, built, -⟩
  · have computed := (compute?_eq e).symm.trans (compute?_of_build built value)
    exact .inl ⟨v, calculated, Except.ok.inj computed⟩
  · exact .inr ⟨p, built, compute_of_build_error built⟩

theorem compute_eq_success_iff {e : Text} {v : Float} :
    compute e = .success e v ↔ calculate e = .ok v := by
  rcases compute_cases e with ⟨w, calculated, computed⟩ | ⟨p, built, computed⟩
  · simp [computed, calculated, Outcome.success]
  · simp [computed, calculate, built, Outcome.success, Outcome.failure]

theorem compute_result_iff {e : Text} {v : Float} :
    (compute e).result = some v ↔ calculate e = .ok v := by
  rcases compute_cases e with ⟨w, calculated, computed⟩ | ⟨p, built, computed⟩
  · simp [computed, calculated, Outcome.success]
  · simp [computed, calculate, built, Outcome.failure]

/-- A request for an expression always has an outcome, for that expression and with either a result or
an error.  The result is the value of the tree, which always has one; without a tree, the error is the
message of what is wrong with the text. -/
theorem compute_always_reports (e : Text) :
    ∃ r o, requestedExpression (.text e) = .ok r ∧ compute? r = .ok o ∧
      Outcome.ofFields (.text e) (o.result.elim .missing .number) (o.error.elim .missing .text)
        = .ok o ∧
      o.expression = e ∧ (o.result.isSome ↔ o.error = none) ∧
      (o.result.isSome ↔ ∃ t, Expression.build e = .ok t) ∧
      (∀ t, Expression.build e = .ok t →
        ∃ v, t.evaluate = .ok v ∧ o.result = some v) ∧
      ∀ err, Expression.build e = .error err →
        ∃ p, err = .parse p ∧ o.error = some p.message := by
  refine ⟨e, ?_⟩
  cases h : Expression.build e with
  | ok t =>
    obtain ⟨v, value⟩ := exists_evaluate_of_build h
    refine ⟨.success e v, rfl, compute?_of_build h value, Outcome.ofFields_self (.success e v), rfl,
      by simp [Outcome.success], by simp [Outcome.success], ?_, by simp⟩
    rintro u ⟨⟩
    exact ⟨v, value, rfl⟩
  | error err =>
    obtain ⟨p, rfl⟩ := Expression.exists_parse_of_build h
    refine ⟨.failure e p.message, rfl, compute?_of_build_error h,
      Outcome.ofFields_self (.failure e p.message), rfl,
      by simp [Outcome.failure], by simp [Outcome.failure], by simp, ?_⟩
    rintro _ ⟨⟩
    exact ⟨p, rfl, rfl⟩

end DeskCalc
