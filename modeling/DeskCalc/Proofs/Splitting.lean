import DeskCalc.Proofs.Modes
import Mathlib.Data.List.DropRight

/-! The expressions of a text, line end by line end.  A line feed between two texts ends the last
line of the first one or makes a blank line; as a carriage return at the end of the first one takes
it in, it may also do neither.  Blank lines hold no expression, so that the expressions of both texts
are those of each.  What a line holds once it is trimmed can be written on a line again, and the line
ends of the text may be of any kind. -/

namespace DeskCalc

namespace Text

/-! ### Trimming -/

@[simp] theorem trim_nil : trim [] = [] := rfl

/-- A trimmed text has no blanks to trim. -/
@[simp] theorem trim_trim (t : Text) : trim (trim t) = trim t := by
  have fromStart : (trim t).dropWhile isBlank = trim t := by
    rw [List.dropWhile_eq_self_iff]
    intro nonempty blank
    -- The first character is also first before the blanks at the end are dropped.
    have front : trim t <+: t.dropWhile isBlank := List.rdropWhile_prefix isBlank _
    have there : t.dropWhile isBlank ≠ [] := front.ne_nil (List.ne_nil_of_length_pos nonempty)
    have first := List.head_dropWhile_not isBlank there
    rw [front.getElem nonempty, ← List.head_eq_getElem there, first] at blank
    cases blank
  calc trim (trim t) = dropEnd isBlank (trim t) := by rw [trim, fromStart]
    _ = trim t := List.rdropWhile_idempotent isBlank _

/-! ### Lines -/

theorem lines_eq_nil_iff {t : Text} : lines t = [] ↔ t = [] := by
  fun_induction lines t <;> simp_all

/-- A boundary that is not a carriage return before a line feed ends an empty line. -/
theorem lines_boundary {c : Char} {t : Text} (boundary : isLineBoundary c)
    (single : c = '\r' → t.head? ≠ some '\n') : lines (c :: t) = [] :: lines t := by
  refine (lines.eq_3 c t ?_).trans (if_pos boundary)
  rintro rest rfl rfl
  exact single rfl rfl

/-- A line feed between two texts adds a blank line at most. -/
theorem lines_append_feed_append (a b : Text) : lines (a ++ '\n' :: b) = lines a ++ lines b ∨
    lines (a ++ '\n' :: b) = lines a ++ [] :: lines b := by
  -- An empty line before both sides of either equation keeps it.
  have empty {l m n : List Text} (h : l = m ∨ l = n) : [] :: l = [] :: m ∨ [] :: l = [] :: n :=
    h.imp (congrArg _) (congrArg _)
  fun_induction lines a with
  | case1 => exact .inr (lines_feed b)
  | case2 rest ih => exact empty ih
  | case3 c rest notPair boundary ih =>
    cases rest with
    | nil =>
      by_cases pair : c = '\r'
      · subst pair
        exact .inl rfl
      · have front := lines_boundary (t := '\n' :: b) boundary fun h => absurd h pair
        exact .inr (front.trans (congrArg _ (lines_feed b)))
    | cons d rest =>
      have front := lines_boundary (t := d :: rest ++ '\n' :: b) boundary fun h first =>
        notPair rest h (by simpa using first)
      rw [List.cons_append, front]
      exact empty ih
  | case4 c rest notPair inside last ih =>
    obtain rfl := lines_eq_nil_iff.1 last
    left
    rw [List.cons_append, lines_cons (by simpa using inside), List.nil_append, lines_feed]
    rfl
  | case5 c rest notPair inside line more split ih =>
    have front := lines_cons (by simpa using inside) (rest ++ '\n' :: b)
    rw [split] at ih
    rw [List.cons_append, front]
    rcases ih with ih | ih <;> simp [ih]

/-- With line feeds for all line ends a text has the same lines. -/
theorem lines_unifyLineEnds (t : Text) : lines (unifyLineEnds t) = lines t := by
  fun_induction unifyLineEnds t with
  | case1 => rfl
  | case2 rest ih => rw [lines_feed, ih]; rfl
  | case3 c rest notPair ih =>
    by_cases single : c = '\r'
    · subst single
      have pairless : rest.head? ≠ some '\n' := by
        rintro first
        obtain ⟨_, rfl⟩ := List.head?_eq_some_iff.1 first
        exact notPair _ rfl rfl
      rw [if_pos rfl, lines_feed, ih, lines_boundary (by decide) fun _ => pairless]
    · rw [if_neg single]
      cases boundary : isLineBoundary c with
      | true => rw [lines_boundary boundary fun h => absurd h single,
          lines_boundary boundary fun h => absurd h single, ih]
      | false => rw [lines_cons boundary, lines_cons boundary, ih]

end Text

namespace Batch

/-! ### Expressions -/

theorem expressions_append_feed (a b : Text) :
    expressions (a ++ '\n' :: b) = expressions a ++ expressions b := by
  rcases Text.lines_append_feed_append a b with split | split <;> simp [expressions, split]

theorem trimmedLine_of_mem_expressions {content e : Text} (h : e ∈ expressions content) :
    TrimmedLine e := by
  have unbroken := unbroken_of_mem_expressions h
  simp only [expressions, List.mem_filter, List.mem_map, decide_eq_true_eq] at h
  obtain ⟨⟨line, -, rfl⟩, nonempty⟩ := h
  exact ⟨nonempty, Text.trim_trim line, unbroken⟩

theorem expressions_unifyLineEnds (content : Text) :
    expressions (Text.unifyLineEnds content) = expressions content := by
  rw [expressions, Text.lines_unifyLineEnds, expressions]

/-- The expressions of two texts with a line feed between them are those of the first and then those
of the second.  Every expression of a text is one trimmed line, and texts are the expressions of
their lines exactly when each is such a line; so the expressions of a text, written on lines of their
own, are read again.  With line feeds for all line ends a text has the same expressions. -/
theorem expressions_follow_lines :
    (∀ a b, expressions (a ++ '\n' :: b) = expressions a ++ expressions b) ∧
    (∀ content, ∀ e ∈ expressions content, TrimmedLine e) ∧
    (∀ xs, expressions (Text.join ['\n'] xs) = xs ↔ ∀ x ∈ xs, TrimmedLine x) ∧
    (∀ content, expressions (Text.join ['\n'] (expressions content)) = expressions content) ∧
    ∀ content, expressions (Text.unifyLineEnds content) = expressions content := by
  refine ⟨expressions_append_feed, fun content e he => trimmedLine_of_mem_expressions he,
    fun xs => ⟨fun same x hx => ?_, expressions_join⟩, fun content => ?_, expressions_unifyLineEnds⟩
  · rw [← same] at hx
    exact trimmedLine_of_mem_expressions hx
  · exact expressions_join fun e he => trimmedLine_of_mem_expressions he

/-- A line end of two characters that lies between two texts, and a blank that ends no line. -/
theorem expressions_follow_lines_straddling :
    let a := " 1+1\x85 \r".toList
    let b := "\x1f\n-2\t".toList
    expressions (a ++ '\n' :: b) = ["1+1".toList, "-2".toList] ∧ TrimmedLine "-2".toList ∧
      expressions (Text.join ['\n'] ["1+1".toList, "-2".toList]) = ["1+1".toList, "-2".toList] := by
  intro a b
  have first : expressions a = ["1+1".toList] := by decide
  have second : expressions b = ["-2".toList] := by decide
  obtain ⟨together, trimmed, joined, -, -⟩ := expressions_follow_lines
  have both : expressions (a ++ '\n' :: b) = ["1+1".toList, "-2".toList] := by
    rw [together, first, second]
    rfl
  have lines : ∀ x ∈ ["1+1".toList, "-2".toList], TrimmedLine x := by
    rw [← both]
    exact trimmed _
  exact ⟨both, lines _ (by simp), (joined _).2 lines⟩

end Batch

end DeskCalc
