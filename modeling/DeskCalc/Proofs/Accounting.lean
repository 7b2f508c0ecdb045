import DeskCalc.Proofs.FileMode

/-! The account that the program gives of a run.  Each mode counts what failed in its own way, and
the status is one exactly when an expression or the file failed, whatever was typed.  What is printed
is the lines of the expressions, the path of the results if the file was gone through, and the
session, in this order. -/

namespace DeskCalc

/-- Evaluating an expression gives an error. -/
def Fails (x : Text) : Prop := ∃ text, (compute x).error = some text

theorem not_fails_iff {x : Text} : ¬ Fails x ↔ (compute x).ok = true := by
  simp [Fails, Outcome.ok, Option.eq_none_iff_forall_not_mem]

theorem Batch.failures_eq_zero_iff {es : List Text} :
    failures (es.map compute) = 0 ↔ ∀ x ∈ es, ¬ Fails x := by
  simp only [failures, List.countP_eq_zero, List.forall_mem_map, not_fails_iff]
  simp

namespace Program

/-- The file at a path cannot be read, or evaluating one of its expressions gives an error. -/
def FileFails (h : Host) (s : FileStore) (p : FilePath) : Prop :=
  (∃ e, readSource h s defaultEncoding p = .error e) ∨
    ∃ c, readSource h s defaultEncoding p = .ok c ∧ ∃ x ∈ Batch.expressions c, Fails x

/-- An expression that was given as an argument fails, or the file does. -/
def SomeFails (h : Host) (s : FileStore) (settings : Settings) : Prop :=
  (∃ x ∈ settings.expressions, Fails x) ∨ ∃ p, settings.file? = some p ∧ FileFails h s p

/-- The line with the path of the results, once the file was read. -/
def resultsLine (h : Host) (s : FileStore) (settings : Settings) : Text :=
  match settings.file? with
  | none => []
  | some p =>
    match readSource h s defaultEncoding p, p.results with
    | .ok _, .ok output => output.toText ++ ['\n']
    | _, _ => []

/-- The step of the file mode prints the path of the results once the file was read, and counts a
failure exactly when the file fails. -/
theorem fileStep_accounts {h : Host} {s : FileStore} {arguments : List Text} {settings : Settings}
    {second : Step} (parsed : Settings.parse s arguments = .ok settings)
    (stepped : fileStep h s settings = .ok second) :
    second.output = resultsLine h s settings ∧
      (second.failures = 0 ↔ ∀ p, settings.file? = some p → ¬ FileFails h s p) := by
  cases file : settings.file? with
  | none =>
    rw [fileStep, file] at stepped
    cases stepped
    simp [resultsLine, file]
  | some p =>
    obtain ⟨output, results, ends⟩ := fileStep_end parsed file
    rw [stepped] at ends
    cases ends with
    | written read place =>
      simp [resultsLine, file, read, results, Batch.failures_eq_zero_iff, FileFails]
    | reported unread known shown =>
      simp [resultsLine, file, unread, FileFails]

theorem exists_step_of_run {h : Host} {j : Journal} {s : FileStore} {input : Text} {arguments : List Text}
    {settings : Settings} {report : Report} (parsed : Settings.parse s arguments = .ok settings)
    (ran : run h j s input arguments = .ok report) :
    ∃ second, fileStep h s settings = .ok second ∧ report = reportOf j s input settings second := by
  rw [run_eq parsed] at ran
  cases stepped : fileStep h s settings with
  | error a =>
    rw [stepped] at ran
    cases ran
  | ok second =>
    rw [stepped] at ran
    cases ran
    exact ⟨second, rfl, rfl⟩

theorem status_reportOf {h : Host} {s : FileStore} {arguments : List Text} {settings : Settings}
    {second : Step} (j : Journal) (input : Text) (parsed : Settings.parse s arguments = .ok settings)
    (stepped : fileStep h s settings = .ok second) :
    ((reportOf j s input settings second).status = 1 ↔ SomeFails h s settings) ∧
      ((reportOf j s input settings second).status = 0 ↔ ¬ SomeFails h s settings) := by
  have first : (evaluateArguments s settings.expressions).failures = 0
      ↔ ∀ x ∈ settings.expressions, ¬ Fails x := Batch.failures_eq_zero_iff
  have file := (fileStep_accounts parsed stepped).2
  have both : (evaluateArguments s settings.expressions).failures + second.failures = 0
      ↔ ¬ SomeFails h s settings := by
    rw [Nat.add_eq_zero_iff, first, file]
    simp [SomeFails]
  have status : (reportOf j s input settings second).status
      = if (evaluateArguments s settings.expressions).failures + second.failures = 0 then 0 else 1 := rfl
  rw [status]
  split
  · next zero => simp [both.1 zero]
  · next positive => simp [not_not.1 (both.not.1 positive)]

/-- The account of a run that ends with a report.  Its status is one exactly when an expression that
was given as an argument fails, or the file cannot be read, or an expression of the file fails;
otherwise it is zero.  It prints a line for every expression in order, whether it fails or not, then
the path of the results exactly when the file was read, then the session if one was asked for.
Whatever else is typed, the status and the files are the same. -/
theorem run_accounts_for_failures {h : Host} {j : Journal} {s : FileStore} {input : Text}
    {arguments : List Text} {settings : Settings} {report : Report}
    (parsed : Settings.parse s arguments = .ok settings) (ran : run h j s input arguments = .ok report) :
    (report.status = 1 ↔ SomeFails h s settings) ∧ (report.status = 0 ↔ ¬ SomeFails h s settings) ∧
    report.output = (settings.expressions.flatMap fun x => (compute x).line ++ ['\n'])
      ++ resultsLine h s settings
      ++ (if settings.interactive then Session.transcript Display.zero input else []) ∧
    ∀ input', ∃ report', run h j s input' arguments = .ok report' ∧
      report'.status = report.status ∧ report'.store = report.store := by
  obtain ⟨second, stepped, rfl⟩ := exists_step_of_run parsed ran
  have status := status_reportOf j input parsed stepped
  refine ⟨status.1, status.2, ?_, fun input' => ⟨reportOf j s input' settings second, ?_, rfl, ?_⟩⟩
  · simp [reportOf, evaluateArguments, Batch.resultsText, List.flatMap_map,
      (fileStep_accounts parsed stepped).1]
  · rw [run_eq parsed, stepped]
    rfl
  · simp [reportOf]

/-- A good expression before a bad one, a file that cannot be read, and a session. -/
theorem run_accounts_for_failures_mixed :
    let h : Host := .usual fun _ _ => none
    let arguments := ["1".toList, "x".toList, "-i".toList, "-f".toList, "a.rar".toList]
    let s : FileStore :=
      ⟨[(⟨['/'], h.temporary⟩, .directory), (FilePath.parse "a.rar".toList, .file [0x31])]⟩
    ∃ report, run h .start s "2".toList arguments = .ok report ∧ report.status = 1 ∧
      report.output = (compute ['1']).line ++ '\n' :: (compute ['x']).line ++ ['\n']
        ++ Session.transcript Display.zero "2".toList := by
  intro h arguments s
  have parsed : Settings.parse s arguments
      = .ok ⟨[['1'], ['x']], some (FilePath.parse "a.rar".toList), true, none⟩ := by rfl
  have unread : readSource h s defaultEncoding (FilePath.parse "a.rar".toList)
      = .error (.unsupportedFormat ".rar".toList) := by rfl
  obtain ⟨_, -, ran⟩ := run_of_reported parsed .start "2".toList rfl unread rfl
  obtain ⟨status, -, printed, -⟩ := run_accounts_for_failures parsed ran
  have line : resultsLine h s ⟨[['1'], ['x']], some (FilePath.parse "a.rar".toList), true, none⟩ = [] := by
    simp only [resultsLine, unread]
  refine ⟨_, ran, status.2 (.inr ⟨_, rfl, .inl ⟨_, unread⟩⟩), ?_⟩
  rw [printed, line]
  simp

end Program

end DeskCalc
