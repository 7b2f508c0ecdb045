import DeskCalc.Proofs.Accepted
import DeskCalc.Proofs.Accounting
import DeskCalc.Proofs.DistinctLines

/-! What a run tells of the expressions that fail: a warning for each, in the order of the file, and
at the end their number.  That is the number of the lines of the results that show an error, because
no line of a value can hold the mark of one.  The number in a warning is that of the expression.  It
is the number of the line that the expression stands on as long as no line above it is blank, and
otherwise less by the blank lines above. -/

namespace DeskCalc

theorem Text.ofNat_injective : Function.Injective ofNat := fun m n same => by
  have value (n : Nat) : Nat.ofDigitChars 10 (ofNat n) 0 = n :=
    Nat.ofDigitChars_toDigits (by decide) (by decide)
  rw [← value m, same, value n]

/-! ### Lines with an error -/

/-- All characters of an expression with a tree are on keys, but for one that may be pending. -/
theorem Expression.exists_pending_of_build {e : Text} {t : Tree} (built : build e = .ok t) :
    ∃ pending, ∀ c ∈ e, KeypadChar c ∨ c = pending := by
  obtain ⟨tokens, _, row, rest, -, -⟩ := build_eq_ok_iff_row.1 built
  generalize text : Token.textOf tokens = s at rest
  have typed : ∀ c ∈ s, KeypadChar c := text ▸ row.keypad
  cases rest with
  | complete last digit => exact ⟨'0', fun c hc => .inl (typed c hc)⟩
  | @waiting s pending notDigit =>
    refine ⟨pending, fun c hc => ?_⟩
    rcases List.mem_append.1 hc with hc | hc
    · exact .inl (typed c hc)
    · exact .inr (List.mem_singleton.1 hc)

namespace Outcome

/-- The mark of an error is found in the lines of the expressions that fail, and in no others. -/
theorem errorMark_infix_iff (e : Text) : errorMark <:+: (compute e).line ↔ Fails e := by
  rcases compute_cases e with ⟨v, value, computed⟩ | ⟨p, fault, computed⟩
  · -- Two characters of the mark are on no key and in no result, and only one can be pending.
    have built : ∃ t, Expression.build e = .ok t := by
      rcases calculate_cases e with ⟨t, -, built, -⟩ | ⟨p, -, refused⟩
      · exact ⟨t, built⟩
      · rw [refused] at value
        cases value
    obtain ⟨t, built⟩ := built
    obtain ⟨pending, typed⟩ := Expression.exists_pending_of_build built
    have foreign {c : Char} (hc : c ∈ (compute e).line) (key : ¬ KeypadChar c)
        (result : ¬ ResultChar c) (mark : c ∉ resultMark) : c = pending := by
      rw [computed] at hc
      simp only [line, success, Option.elim_some, List.mem_append] at hc
      rcases hc with (hc | hc) | hc
      · exact (typed c hc).resolve_left key
      · exact absurd hc mark
      · exact absurd (written_resultText v c hc) result
    have good : ¬ Fails e := not_fails_iff.2 (by rw [computed]; rfl)
    refine iff_of_false (fun shown => ?_) good
    have arrow := foreign (c := '>') (shown.subset (by decide)) (by decide) (by decide) (by decide)
    have letter := foreign (c := 'E') (shown.subset (by decide)) (by decide) (by decide) (by decide)
    rw [← letter] at arrow
    cases arrow
  · refine iff_of_true ⟨e, p.message, ?_⟩ ⟨p.message, by rw [computed]; rfl⟩
    rw [line_of_fault fault, List.append_assoc]

end Outcome

namespace Batch

/-- How many lines of a text show an error. -/
def errorLines (t : Text) : Nat := (Text.lines t).countP fun line => errorMark <:+: line

/-- The failures among the outcomes are the lines with an error among the results. -/
theorem errorLines_resultsText {es : List Text} (h : ∀ e ∈ es, Text.Unbroken e) :
    errorLines (resultsText (es.map compute)) = failures (es.map compute) := by
  rw [errorLines, lines_resultsText h, failures, List.countP_map, List.countP_map]
  refine List.countP_congr fun e _ => ?_
  have failed : (!(compute e).ok) = true ↔ Fails e := by
    rw [← not_iff_not, not_fails_iff]
    simp
  simpa [failed] using Outcome.errorMark_infix_iff e

/-! ### Lines and expressions -/

/-- The lines of a text, trimmed, with their numbers. -/
def numberedLines (content : Text) : List (Text × Nat) :=
  ((Text.lines content).map Text.trim).zipIdx 1

/-- The expressions of a text, each with the number of the line that it stands on. -/
def standing (content : Text) : List (Text × Nat) := (numberedLines content).filter (·.1 ≠ [])

/-- How many of some numbered lines are blank and stand above the line with a number. -/
def blanksAbove (lines : List (Text × Nat)) (number : Nat) : Nat :=
  lines.countP fun x => x.1 = [] && x.2 < number

theorem map_fst_standing (content : Text) : (standing content).map (·.1) = expressions content := by
  have lines : (numberedLines content).map (·.1) = (Text.lines content).map Text.trim :=
    List.zipIdx_map_fst _ _
  rw [expressions, ← lines, List.filter_map]
  rfl

theorem blanksAbove_blank {k n : Nat} (above : k < n) (lines : List (Text × Nat)) :
    blanksAbove (([], k) :: lines) n = blanksAbove lines n + 1 :=
  List.countP_cons_of_pos (by simpa using above)

theorem blanksAbove_of_ne_nil {t : Text} (nonblank : t ≠ []) (k n : Nat) (lines : List (Text × Nat)) :
    blanksAbove ((t, k) :: lines) n = blanksAbove lines n :=
  List.countP_cons_of_neg (by simp [nonblank])

theorem blanksAbove_zipIdx {n k : Nat} (ls : List Text) (first : n ≤ k) :
    blanksAbove (ls.zipIdx k) n = 0 := by
  refine List.countP_eq_zero.2 fun x hx => ?_
  have below := List.le_snd_of_mem_zipIdx hx
  simp only [Bool.and_eq_true, decide_eq_true_eq, not_and]
  omega

/-- Counting what is not blank from `k`, while the lines are counted from `k + d`, runs behind by `d`
and by the blank lines that are passed. -/
theorem zipIdx_nonblank (ls : List Text) (k d : Nat) : (ls.filter (· ≠ [])).zipIdx k
    = ((ls.zipIdx (k + d)).filter (·.1 ≠ [])).map fun x =>
        (x.1, x.2 - (d + blanksAbove (ls.zipIdx (k + d)) x.2)) := by
  induction ls generalizing k d with
  | nil => rfl
  | cons l ls ih =>
    rw [List.zipIdx_cons]
    by_cases blank : l = []
    · subst blank
      rw [List.filter_cons_of_neg (by simp), ih k (d + 1), List.filter_cons_of_neg (by simp)]
      refine List.map_congr_left fun x hx => ?_
      have passed : k + d < x.2 := List.le_snd_of_mem_zipIdx (List.mem_filter.1 hx).1
      rw [blanksAbove_blank passed, Nat.add_assoc k d 1]
      congr 2
      omega
    · rw [List.filter_cons_of_pos (by simpa using blank), List.zipIdx_cons, ih (k + 1) d,
        List.filter_cons_of_pos (by simpa using blank), List.map_cons, Nat.add_right_comm k 1 d]
      simp only [blanksAbove_of_ne_nil blank, blanksAbove_zipIdx ls (Nat.le_succ (k + d)),
        Nat.add_zero, Nat.add_sub_cancel]

/-- An expression has the number of the line that it stands on, less the blank lines above. -/
theorem zipIdx_expressions (content : Text) : (expressions content).zipIdx 1
    = (standing content).map fun x => (x.1, x.2 - blanksAbove (numberedLines content) x.2) := by
  have counted := zipIdx_nonblank ((Text.lines content).map Text.trim) 1 0
  simp only [Nat.zero_add, Nat.add_zero] at counted
  exact counted

/-! ### Warnings -/

def warnings (records : List Record) : List Record := records.filter (·.level = .warning)

/-- The warning with a number for an expression, if it fails. -/
def warning? (number : Nat) (e : Text) : Option Record := (compute e).error.map (failureRecord number)

theorem warnings_append (a b : List Record) : warnings (a ++ b) = warnings a ++ warnings b :=
  List.filter_append ..

theorem warnings_computeRecords (e : Text) : warnings (computeRecords e) = [] := by
  have building : warnings (buildRecords e) = [] := by
    unfold buildRecords
    repeat' split
    all_goals rfl
  rw [computeRecords, warnings_append, building]
  cases calculate e <;> rfl

theorem warnings_expressionRecords (number : Nat) (e : Text) :
    warnings (expressionRecords number e) = (warning? number e).toList := by
  rw [expressionRecords, warnings_append, warnings_computeRecords, warning?]
  cases (compute e).error <;> rfl

/-- Each expression that fails is warned of once, with its own number. -/
theorem warnings_evaluationRecords (number : Nat) (es : List Text) :
    warnings (evaluationRecords number es)
      = (es.zipIdx number).filterMap fun x => warning? x.2 x.1 := by
  induction es generalizing number with
  | nil => rfl
  | cons e es ih =>
    rw [evaluationRecords, warnings_append, warnings_expressionRecords, ih, List.zipIdx_cons]
    cases warned : warning? number e <;> simp [warned]

theorem failureRecord_injective (message : Text) :
    Function.Injective (failureRecord · message) := fun m n same => by
  have texts := congrArg Record.message same
  simp only [failureRecord] at texts
  exact Text.ofNat_injective
    (List.append_cancel_left (List.append_cancel_right (List.append_cancel_right texts)))

/-- Warnings for the same expressions are the same only with the same numbers. -/
theorem filterMap_warning_inj {xs : List (Text × Nat)} {m n : Text × Nat → Nat} :
    xs.filterMap (fun x => warning? (m x) x.1) = xs.filterMap (fun x => warning? (n x) x.1) ↔
      ∀ x ∈ xs, Fails x.1 → m x = n x := by
  induction xs with
  | nil => simp
  | cons x xs ih =>
    rw [List.forall_mem_cons, ← ih]
    cases error : (compute x.1).error with
    | none => simp [warning?, Fails, error]
    | some message =>
      have tells := (failureRecord_injective message).eq_iff (a := m x) (b := n x)
      simp [warning?, Fails, error, tells]

/-- What a run logs, once its input is read and the results file can be opened. -/
theorem records_of_read {h : Host} {s : FileStore} {encoding : Text} {input output q : FilePath} {c : Text}
    (read : readSource h s encoding input = .ok c) (place : s.place? output = .ok q) :
    (run h s encoding input output).records
      = readRecords input ++ [startRecord (expressions c).length input]
        ++ evaluationRecords 1 (expressions c)
        ++ [endRecord output (failures ((expressions c).map compute))] := by
  simp only [run, on_readFrom, read, FileStore.write_eq, place]

theorem warnings_opening (count : Nat) (input : FilePath) :
    warnings (readRecords input ++ [startRecord count input]) = [] := by
  unfold readRecords
  split <;> rfl

theorem warnings_run {h : Host} {s : FileStore} {encoding : Text} {input output q : FilePath} {c : Text}
    (read : readSource h s encoding input = .ok c) (place : s.place? output = .ok q) :
    warnings (run h s encoding input output).records = (standing c).filterMap fun x =>
      warning? (x.2 - blanksAbove (numberedLines c) x.2) x.1 := by
  have ending : warnings [endRecord output (failures ((expressions c).map compute))] = [] := rfl
  rw [records_of_read read place, warnings_append, warnings_append, warnings_opening, ending,
    warnings_evaluationRecords, zipIdx_expressions, List.filterMap_map, List.append_nil]
  rfl

/-- The warnings of a run that has read its input.  There is one for each expression that fails, in
the order of the file.  It has the number of the line that the expression stands on less the blank
lines above, so that all numbers are those of the lines exactly if no expression that fails has a
blank line above it.  The last record gives the number of the lines that show an error in the results
file.  Without a results file there are no warnings, as nothing is evaluated. -/
theorem warnings_count_expressions {h : Host} {s : FileStore} {encoding : Text} {input : FilePath} {c : Text}
    (read : readSource h s encoding input = .ok c) (output : FilePath) :
    let r := run h s encoding input output
    (standing c).map (·.1) = expressions c ∧
    (∀ q, s.place? output = .ok q →
      warnings r.records = ((standing c).filterMap fun x =>
        warning? (x.2 - blanksAbove (numberedLines c) x.2) x.1) ∧
      (warnings r.records = ((standing c).filterMap fun x => warning? x.2 x.1) ↔
        ∀ x ∈ standing c, Fails x.1 → blanksAbove (numberedLines c) x.2 = 0) ∧
      ∃ written, readText r.store defaultEncoding output = .ok written ∧
        r.records.getLast? = some (endRecord output (errorLines written))) ∧
    ∀ f, s.place? output = .error f → r.result = .error (.write f) ∧ warnings r.records = [] := by
  intro r
  refine ⟨map_fst_standing c, fun q place => ⟨warnings_run read place, ?_, ?_⟩, fun f noPlace => ?_⟩
  · rw [warnings_run read place, filterMap_warning_inj]
    refine forall₂_congr fun x hx => imp_congr_right fun _ => ?_
    have positive : 1 ≤ x.2 := List.le_snd_of_mem_zipIdx (List.mem_filter.1 hx).1
    omega
  · have unbroken : ∀ e ∈ expressions c, Text.Unbroken e := fun e he => unbroken_of_mem_expressions he
    have ran := congrArg Prod.snd (run_of_read read output)
    simp only [place] at ran
    refine ⟨resultsText ((expressions c).map compute), ?_, ?_⟩
    · rw [ran]
      exact readText_of_encoded (return_not_mem_resultsText unbroken) (FileStore.open?_insert place _)
    · rw [records_of_read read place, List.getLast?_concat, errorLines_resultsText unbroken]
  · have ran := congrArg Prod.fst (run_of_read read output)
    have records : r.records = readRecords input ++ [startRecord (expressions c).length input] := by
      simp only [r, run, on_readFrom, read, FileStore.write_eq, noPlace]
    simp only [noPlace] at ran
    exact ⟨ran, by rw [records, warnings_opening]⟩

/-- Blank lines of two kinds between expressions, of which the first is good. -/
theorem warnings_count_expressions_spaced :
    let h : Host := .usual fun _ _ => none
    let c := "1\n\n x \n\x1f\n+2".toList
    let s : FileStore := ⟨[(FilePath.parse "a.txt".toList, .file (Utf8.encode c))]⟩
    let input := FilePath.parse "a.txt".toList
    let output := FilePath.parse "out.txt".toList
    let r := run h s defaultEncoding input output
    readSource h s defaultEncoding input = .ok c ∧ s.place? output = .ok output ∧
      standing c = [("1".toList, 1), ("x".toList, 3), ("+2".toList, 5)] ∧
      warnings r.records = [failureRecord 2 "Missing final operand: ''".toList,
        failureRecord 3 "Missing operand before '+' at position 0: '+2'".toList] ∧
      ∃ written, readText r.store defaultEncoding output = .ok written ∧
        r.records.getLast? = some (endRecord output (errorLines written)) := by
  intro h c s input output r
  have read : readSource h s defaultEncoding input = .ok c :=
    readSource_of_encoded (by decide) (by decide) (by rfl) h
  have place : s.place? output = .ok output := by rfl
  obtain ⟨-, opened, -⟩ := warnings_count_expressions read output
  obtain ⟨warned, -, counted⟩ := opened output place
  exact ⟨read, place, by decide, warned.trans (by decide +kernel), counted⟩

/-- The expression of a file whose first line is blank is warned of with the number of that line. -/
theorem warning_names_blank_line :
    let h : Host := .usual fun _ _ => none
    let c := "\nx".toList
    let message := "Missing final operand: ''".toList
    let s : FileStore := ⟨[(FilePath.parse "a.txt".toList, .file (Utf8.encode c))]⟩
    let r := run h s defaultEncoding (FilePath.parse "a.txt".toList) (FilePath.parse "out.txt".toList)
    readSource h s defaultEncoding (FilePath.parse "a.txt".toList) = .ok c ∧
      standing c = [(['x'], 2)] ∧ (compute ['x']).error = some message ∧
      warnings r.records = [failureRecord 1 message] ∧
      failureRecord 1 message ≠ failureRecord 2 message := by
  intro h c message s r
  have read : readSource h s defaultEncoding (FilePath.parse "a.txt".toList) = .ok c :=
    readSource_of_encoded (by decide) (by decide) (by rfl) h
  have place : s.place? (FilePath.parse "out.txt".toList) = .ok (FilePath.parse "out.txt".toList) := by
    rfl
  refine ⟨read, by decide, by decide, (warnings_run read place).trans (by decide +kernel), ?_⟩
  exact (failureRecord_injective message).ne (by decide)

end Batch

end DeskCalc
