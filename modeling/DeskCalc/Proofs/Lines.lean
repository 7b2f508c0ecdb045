import DeskCalc.Batch
import DeskCalc.Proofs.Reporting
import DeskCalc.Proofs.RoundTrip

/-! Texts that stay on one line.  An expression of a file has no line boundary in it, nor has a quoted
text, whatever is quoted, nor a result.  So the line of an outcome is one line, and lines that are each
ended by a line feed are read back as they are. -/

namespace DeskCalc

namespace Text

/-- No character of the text ends a line. -/
def Unbroken (t : Text) : Prop := ∀ c ∈ t, isLineBoundary c = false

instance (t : Text) : Decidable (Unbroken t) :=
  List.decidableBAll (fun c => isLineBoundary c = false) t

@[simp] theorem unbroken_nil : Unbroken [] := by simp [Unbroken]

@[simp] theorem unbroken_cons {c : Char} {t : Text} :
    Unbroken (c :: t) ↔ isLineBoundary c = false ∧ Unbroken t := by simp [Unbroken]

@[simp] theorem unbroken_append {t u : Text} : Unbroken (t ++ u) ↔ Unbroken t ∧ Unbroken u := by
  simp only [Unbroken, List.mem_append]
  grind

@[simp] theorem unbroken_flatMap {f : Char → Text} {t : Text} :
    Unbroken (t.flatMap f) ↔ ∀ c ∈ t, Unbroken (f c) := by
  simp only [Unbroken, List.mem_flatMap]
  grind

theorem Unbroken.sublist {t u : Text} (h : Unbroken u) (part : t.Sublist u) : Unbroken t :=
  fun c hc => h c (part.subset hc)

/-! ### Lines -/

theorem lines_cons {c : Char} (h : isLineBoundary c = false) (t : Text) :
    lines (c :: t) = match lines t with
      | [] => [[c]]
      | line :: more => (c :: line) :: more := by
  -- Only a carriage return looks at the character after it, and that is a boundary itself.
  refine (lines.eq_3 c t ?_).trans (if_neg (by simp [h]))
  rintro - rfl
  exact absurd h (by decide)

theorem lines_feed (t : Text) : lines ('\n' :: t) = [] :: lines t := by
  refine (lines.eq_3 '\n' t ?_).trans (if_pos (by decide))
  rintro - ⟨⟩

/-- A text up to a line feed is the first line. -/
theorem lines_append_feed {t : Text} (h : Unbroken t) (rest : Text) :
    lines (t ++ '\n' :: rest) = t :: lines rest := by
  induction t with
  | nil => exact lines_feed rest
  | cons c t ih =>
    obtain ⟨hc, ht⟩ := unbroken_cons.1 h
    rw [List.cons_append, lines_cons hc, ih ht]

theorem lines_of_unbroken {t : Text} (h : Unbroken t) (nonempty : t ≠ []) : lines t = [t] := by
  induction t with
  | nil => exact absurd rfl nonempty
  | cons c t ih =>
    obtain ⟨hc, ht⟩ := unbroken_cons.1 h
    rw [lines_cons hc]
    cases t with
    | nil => rfl
    | cons d t => rw [ih ht (by simp)]

/-- Lines that are each ended by a line feed are the lines of the text. -/
theorem lines_flatMap {ts : List Text} (h : ∀ t ∈ ts, Unbroken t) :
    lines (ts.flatMap (· ++ ['\n'])) = ts := by
  induction ts with
  | nil => rfl
  | cons t ts ih =>
    rw [List.flatMap_cons, List.append_assoc, List.singleton_append, lines_append_feed (h t (by simp)),
      ih fun u hu => h u (by simp [hu])]

theorem unbroken_of_mem_lines (t : Text) : ∀ line ∈ lines t, Unbroken line := by
  fun_induction lines t with
  | case1 => simp
  | case2 rest ih => simpa using ih
  | case3 c rest notReturn boundary ih => simpa using ih
  | case4 c rest notReturn inside last ih => simpa using inside
  | case5 c rest notReturn inside line more split ih =>
    rw [split] at ih
    simpa [Bool.not_eq_true _ ▸ inside] using ih

/-! ### Texts on one line -/

/-- A printable character ends no line. -/
theorem isLineBoundary_of_isPrintable {c : Char} (h : isPrintable c) : isLineBoundary c = false := by
  have low : (0x7f, 0xa0) ∈ unprintableRanges := by decide +kernel
  have high : (0x2028, 0x202f) ∈ unprintableRanges := by decide +kernel
  by_contra boundary
  simp only [isLineBoundary, Bool.not_eq_false, Bool.or_eq_true, Bool.and_eq_true, decide_eq_true_eq,
    beq_iff_eq] at boundary
  unfold isPrintable at h
  dsimp only at h
  split at h
  · simp only [decide_eq_true_eq] at h
    omega
  · simp only [Bool.not_eq_true', List.any_eq_false, Bool.and_eq_true, decide_eq_true_eq] at h
    have := h _ low
    have := h _ high
    omega

theorem isLineBoundary_of_isDigit {c : Char} (h : c.isDigit) : isLineBoundary c = false := by
  have := Decimal.toNat_of_isDigit h
  simp only [isLineBoundary, Bool.or_eq_false_iff, Bool.and_eq_false_iff, decide_eq_false_iff_not,
    beq_eq_false_iff_ne]
  omega

theorem unbroken_of_digits {t : Text} (h : Digits t) : Unbroken t :=
  fun c hc => isLineBoundary_of_isDigit (h c hc)

theorem unbroken_ofNat (n : Nat) : Unbroken (ofNat n) := unbroken_of_digits (Decimal.digits_ofNat n)

theorem unbroken_hexDigits (width n : Nat) : Unbroken (hexDigits width n) := by
  have digit : ∀ k < 16, isLineBoundary (Nat.digitChar k) = false := by decide
  induction width generalizing n with
  | zero => exact unbroken_nil
  | succ width ih =>
    rw [hexDigits]
    simpa using ⟨ih (n / 16), digit (n % 16) (Nat.mod_lt n (by omega))⟩

theorem unbroken_escape (c : Char) : Unbroken (escape c) := by
  unfold escape
  dsimp only
  repeat' split
  all_goals exact unbroken_cons.2 ⟨by decide, unbroken_cons.2 ⟨by decide, unbroken_hexDigits _ _⟩⟩

theorem unbroken_quotedChar {quote : Char} (h : isLineBoundary quote = false) (c : Char) :
    Unbroken (quotedChar quote c) := by
  unfold quotedChar
  split
  · next special =>
    rcases (by simpa using special : c = quote ∨ c = '\\') with rfl | rfl
    · simpa using ⟨by decide, h⟩
    · decide
  repeat' split
  · decide
  · decide
  · decide
  · next printable => simpa using isLineBoundary_of_isPrintable printable
  · exact unbroken_escape c

/-- A quoted text is on one line, whatever it quotes. -/
theorem unbroken_quoted (t : Text) : Unbroken (quoted t) := by
  have mark : isLineBoundary (quoteOf t) = false := by
    unfold quoteOf
    split <;> decide
  simpa [quoted, mark] using fun c _ => unbroken_quotedChar mark c

theorem dropEnd_sublist (p : Char → Bool) (t : Text) : (dropEnd p t).Sublist t := by
  have dropped := (List.dropWhile_sublist (l := t.reverse) p).reverse
  rwa [List.reverse_reverse] at dropped

theorem trim_sublist (t : Text) : (trim t).Sublist t :=
  (dropEnd_sublist isBlank _).trans (List.dropWhile_sublist isBlank)

end Text

open Text

/-! ### Results -/

/-- A character that results are written with: a digit, the point, a sign, or a letter of `e`, `inf` and
`nan`. -/
def ResultChar (c : Char) : Prop := c.isDigit ∨ c ∈ ['.', '-', '+', 'e', 'i', 'n', 'f', 'a']

instance (c : Char) : Decidable (ResultChar c) := inferInstanceAs (Decidable (_ ∨ _))

/-- A text of such characters. -/
def Written (t : Text) : Prop := ∀ c ∈ t, ResultChar c

namespace Written

theorem cons {c : Char} {t : Text} (hc : ResultChar c) (ht : Written t) : Written (c :: t) :=
  List.forall_mem_cons.2 ⟨hc, ht⟩

theorem append {t u : Text} (ht : Written t) (hu : Written u) : Written (t ++ u) :=
  List.forall_mem_append.2 ⟨ht, hu⟩

theorem sublist {t u : Text} (h : Written u) (part : t.Sublist u) : Written t :=
  fun c hc => h c (part.subset hc)

theorem of_digits {t : Text} (h : Digits t) : Written t := fun c hc => .inl (h c hc)

theorem unbroken {t : Text} (h : Written t) : Unbroken t := by
  intro c hc
  rcases h c hc with digit | mark
  · exact isLineBoundary_of_isDigit digit
  · have marks : ['.', '-', '+', 'e', 'i', 'n', 'f', 'a'].all (isLineBoundary · = false) := by decide
    simpa using List.all_eq_true.1 marks c mark

end Written

theorem written_ofNat (n : Nat) : Written (ofNat n) := .of_digits (Decimal.digits_ofNat n)

theorem written_ofInt (n : Int) : Written (ofInt n) := by
  unfold ofInt
  split
  · exact (written_ofNat _).cons (by decide)
  · exact written_ofNat _

namespace Decimal

theorem written_positional {digits : Text} (h : Written digits) (e : Int) :
    Written (positional digits e) := by
  have zeros (k : Nat) : Written (List.replicate k '0') := .of_digits (digits_zeros k)
  have zero : ResultChar '0' := by decide
  have point : ResultChar '.' := by decide
  unfold positional
  dsimp only
  split
  · exact (((zeros _).cons point).cons zero).append h
  split
  · exact (h.append (zeros _)).append (.cons point (zeros 1))
  · exact (h.sublist (List.take_sublist _ _)).append ((h.sublist (List.drop_sublist _ _)).cons point)

theorem written_exponential {digits : Text} (h : Written digits) (width : Nat) (e : Int) :
    Written (exponential width digits e) := by
  have padded : Written (padLeft width (ofNat e.natAbs)) :=
    (Written.of_digits (digits_zeros _)).append (written_ofNat _)
  have sign : ResultChar (if e < 0 then '-' else '+') := by split <;> decide
  have exponent := (padded.cons sign).cons (c := 'e') (by decide)
  unfold exponential
  dsimp only
  split
  · exact exponent
  · exact h.append exponent
  · next first rest _ =>
    obtain ⟨hfirst, hrest⟩ := List.forall_mem_cons.1 h
    exact ((Written.cons (by decide) hrest).cons hfirst).append exponent

theorem written_write (v : Float) : Written (write v) := by
  have signed {t : Text} (h : Written t) (negative : Bool) : Written (signed negative t) := by
    cases negative with
    | false => exact h
    | true => exact h.cons (by decide)
  have digits (d : Decimal) : Written (significantDigits d) :=
    (written_ofNat _).sublist (dropEnd_sublist _ _)
  have word {t : Text} (all : t.all (ResultChar ·)) : Written t := by simpa [Written] using all
  unfold write
  split
  · exact word (by decide)
  · exact signed (word (by decide)) _
  · refine signed ?_ _
    unfold Layout.magnitude Layout.decimal
    dsimp only
    repeat' split
    · exact word (by decide)
    · exact written_positional (digits _) _
    · exact written_exponential (digits _) _ _

end Decimal

theorem written_resultText (v : Float) : Written (resultText v) := by
  unfold resultText
  repeat' split
  · exact written_ofInt _
  · exact Decimal.written_write v
  · exact Decimal.written_write v

theorem unbroken_resultText (v : Float) : Unbroken (resultText v) := (written_resultText v).unbroken

/-! ### Outcomes -/

/-- A message quotes what it tells of the expression. -/
theorem ParseError.unbroken_message (e : ParseError) : Unbroken e.message := by
  have located {what : Text} (h : Unbroken what) (c : Char) (position : Nat) (source : Text) :
      Unbroken (what ++ quoted [c] ++ " at position ".toList ++ ofNat position ++ ": ".toList
        ++ quoted source) := by
    have place : Unbroken " at position ".toList := by decide
    have colon : Unbroken ": ".toList := by decide
    simp only [unbroken_append]
    exact ⟨⟨⟨⟨⟨h, unbroken_quoted _⟩, place⟩, unbroken_ofNat _⟩, colon⟩, unbroken_quoted _⟩
  cases e with
  | emptyExpression => decide
  | unsupported c position source => exact located (by decide) c position source
  | missingOperand c position source => exact located (by decide) c position source
  | missingFinalOperand source => exact unbroken_append.2 ⟨by decide, unbroken_quoted _⟩
  | malformedNumber t => exact unbroken_append.2 ⟨by decide, unbroken_quoted _⟩

theorem Outcome.unbroken_line {e : Text} (h : Unbroken e) : Unbroken (compute e).line := by
  have result : Unbroken resultMark := by decide
  have error : Unbroken errorMark := by decide
  rcases compute_cases e with ⟨v, -, computed⟩ | ⟨p, -, computed⟩
  · rw [computed]
    simp only [line, success, Option.elim_some, unbroken_append]
    exact ⟨⟨h, result⟩, unbroken_resultText v⟩
  · rw [computed]
    simp only [line, failure, unbroken_append]
    exact ⟨⟨h, error⟩, p.unbroken_message⟩

namespace Batch

theorem unbroken_of_mem_expressions {content e : Text} (h : e ∈ expressions content) :
    Unbroken e := by
  simp only [expressions, List.mem_filter, List.mem_map] at h
  obtain ⟨⟨line, hline, rfl⟩, -⟩ := h
  exact (unbroken_of_mem_lines content line hline).sublist (trim_sublist line)

/-- The text of a results file has one line for each expression. -/
theorem lines_resultsText {es : List Text} (h : ∀ e ∈ es, Unbroken e) :
    lines (resultsText (es.map compute)) = es.map fun e => (compute e).line := by
  have texts : resultsText (es.map compute)
      = (es.map fun e => (compute e).line).flatMap (· ++ ['\n']) := by
    simp [resultsText, List.flatMap_map]
  rw [texts]
  refine lines_flatMap fun t ht => ?_
  obtain ⟨e, he, rfl⟩ := List.mem_map.1 ht
  exact Outcome.unbroken_line (h e he)

end Batch

end DeskCalc
