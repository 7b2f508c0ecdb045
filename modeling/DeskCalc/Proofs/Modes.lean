import DeskCalc.Proofs.ResultsFile

/-! Two modes of the program agree.  After a double dash every argument is an expression, whatever it
looks like; and the expressions of a file are its lines when these are trimmed and not blank.  So
evaluating expressions as arguments prints what evaluating them from a file writes, with the same
status. -/

namespace DeskCalc

/-! ### Arguments -/

theorem shapes_doubleDash (xs : List Text) :
    shapes (doubleDash :: xs) = .ok ((doubleDash, .doubleDash) :: xs.map fun x => (x, .plain)) := by
  simp [shapes]

/-- Plain arguments in a row go on with the row. -/
theorem takeArguments_plain {a : Arguments} {row : List Text} (opened : a.closed = false)
    (begun : a.row? = some row) (xs : List Text) :
    takeArguments a (xs.map fun x => (x, .plain)) = .ok { a with row? := some (row ++ xs) } := by
  induction xs generalizing a row with
  | nil => simp [takeArguments, ← begun]
  | cons x xs ih =>
    have taken : a.takePlain x = { a with row? := some (row ++ [x]) } := by
      simp [Arguments.takePlain, opened, begun]
    rw [List.map_cons, takeArguments, taken]
    have rest := ih (a := { a with row? := some (row ++ [x]) }) opened rfl
    rw [rest, List.append_assoc, List.singleton_append]

/-- After a double dash the arguments are expressions, whatever they look like. -/
theorem Arguments.parse_doubleDash (xs : List Text) :
    Arguments.parse (doubleDash :: xs)
      = .ok { Arguments.none with row? := some (doubleDash :: xs) } := by
  have taken : takeArguments .none ((doubleDash, .doubleDash) :: xs.map fun x => (x, .plain))
      = .ok { Arguments.none with row? := some (doubleDash :: xs) } :=
    takeArguments_plain (a := { Arguments.none with row? := some [doubleDash] }) rfl rfl xs
  simp only [parse, shapes_doubleDash, taken]
  rfl

/-- The option that names a file. -/
def fileOption : Text := "--file".toList

theorem shapeOf_plain {t : Text} (plain : t.head? ≠ some '-') : shapeOf t = .ok .plain := by
  unfold shapeOf
  split
  · exact absurd rfl plain
  · rfl

theorem Arguments.parse_file {t : Text} (plain : t.head? ≠ some '-') :
    Arguments.parse [fileOption, t] = .ok { Arguments.none with file? := some (.text t) } := by
  have notDash : t ≠ doubleDash := by
    rintro rfl
    exact plain rfl
  have option : shapeOf fileOption = .ok (.option ⟨.file, fileOption, .none⟩) := by decide
  have shaped : shapes [fileOption, t]
      = .ok [(fileOption, .option ⟨.file, fileOption, .none⟩), (t, .plain)] := by
    have notDash' : fileOption ≠ doubleDash := by decide
    simp only [shapes, if_neg notDash, if_neg notDash', option, shapeOf_plain plain]
  simp [parse, shaped, takeArguments, GivenFlag.cluster, Flag.takesValue, Arguments.takeSimple,
    takeValue, FlagValue.ofText, notDash, close, Arguments.none]

/-! ### Settings -/

theorem Settings.parse_doubleDash (s : FileStore) {xs : List Text} (nonempty : xs ≠ []) :
    Settings.parse s (doubleDash :: xs) = .ok ⟨xs, none, false, none⟩ := by
  simp [parse, Arguments.parse_doubleDash, fileFault?, check, checkFile, checkLevel,
    Arguments.expressions, Arguments.none, nonempty]

theorem Settings.parse_file {s : FileStore} {t : Text} {e : Entry} (plain : t.head? ≠ some '-')
    (there : s.open? (FilePath.parse t) = .ok e) :
    Settings.parse s [fileOption, t] = .ok ⟨[], some (FilePath.parse t), false, none⟩ := by
  have file : s.isFile (FilePath.parse t) = true := by rw [FileStore.isFile, there]; rfl
  have known : s.unknowable? (FilePath.parse t) = none := by rw [FileStore.unknowable?, there]
  simp [parse, Arguments.parse_file plain, fileFault?, known, check, checkFile, checkLevel, file,
    Arguments.expressions, Arguments.none]

/-! ### The expressions of a file -/

theorem Text.lines_join {ts : List Text} (h : ∀ t ∈ ts, t ≠ [] ∧ Unbroken t) :
    lines (join ['\n'] ts) = ts := by
  induction ts with
  | nil => rfl
  | cons t rest ih =>
    obtain ⟨nonempty, unbroken⟩ := h t (by simp)
    cases rest with
    | nil => exact lines_of_unbroken unbroken nonempty
    | cons u rest =>
      rw [join, List.append_assoc, List.singleton_append, lines_append_feed unbroken,
        ih fun v hv => h v (by simp [hv])]

/-- A text that is one trimmed line and not blank. -/
structure TrimmedLine (x : Text) : Prop where
  nonempty : x ≠ []
  trimmed : Text.trim x = x
  unbroken : Text.Unbroken x

theorem Batch.expressions_join {xs : List Text} (h : ∀ x ∈ xs, TrimmedLine x) :
    expressions (Text.join ['\n'] xs) = xs := by
  have trimmed : xs.map Text.trim = xs := by
    rw [List.map_congr_left fun x hx => (h x hx).trimmed, List.map_id']
  rw [expressions, Text.lines_join fun x hx => ⟨(h x hx).nonempty, (h x hx).unbroken⟩, trimmed]
  simpa using fun x hx => (h x hx).nonempty

theorem return_not_mem_join {xs : List Text} (h : ∀ x ∈ xs, TrimmedLine x) :
    '\r' ∉ Text.join ['\n'] xs := by
  intro there
  rcases Text.mem_join there with there | ⟨x, hx, there⟩
  · exact absurd there (by decide)
  · exact (h x hx).unbroken.return_not_mem there

/-! ### Runs -/

theorem FilePath.exists_results {p : FilePath} (suffix : p.suffix = textEnding) :
    ∃ output, p.results = .ok output := by
  have named : p.name ≠ [] := by
    intro unnamed
    rw [FilePath.suffix, unnamed] at suffix
    exact absurd suffix (by decide)
  exact ⟨_, if_neg named⟩

namespace Program

/-- The status of a program that evaluated expressions. -/
def statusOf (outcomes : List Outcome) : Nat := if Batch.failures outcomes = 0 then 0 else 1

theorem run_doubleDash (h : Host) (j : Journal) (s : FileStore) (input : Text) {xs : List Text}
    (nonempty : xs ≠ []) :
    ∃ records, run h j s input (doubleDash :: xs)
      = .ok ⟨statusOf (xs.map compute), Batch.resultsText (xs.map compute), [], s, records⟩ := by
  rw [run, Settings.parse_doubleDash s nonempty]
  simp [perform, evaluateArguments, statusOf]

theorem run_file {h : Host} (j : Journal) {s : FileStore} (input : Text) {t c : Text} {e : Entry}
    {output : FilePath} (plain : t.head? ≠ some '-') (there : s.open? (FilePath.parse t) = .ok e)
    (results : (FilePath.parse t).results = .ok output)
    (read : readSource h s defaultEncoding (FilePath.parse t) = .ok c) :
    ∃ records, run h j s input [fileOption, t] = match s.place? output with
      | .ok q => .ok ⟨statusOf ((Batch.expressions c).map compute), output.toText ++ ['\n'], [],
          s.insert q (.file (Utf8.encode (Batch.resultsText ((Batch.expressions c).map compute)))),
          records⟩
      | .error f => .error (.run (.write f), records) := by
  have ran := Batch.run_of_read read output
  rw [run, Settings.parse_file plain there]
  cases place : s.place? output with
  | error f =>
    simp only [place, Prod.mk.injEq] at ran
    simp [perform, evaluateArguments, evaluateFile, results, ran]
  | ok q =>
    have noFailures : Batch.failures [] = 0 := rfl
    have noLines : Batch.resultsText [] = [] := rfl
    simp only [place, Prod.mk.injEq] at ran
    simp [perform, evaluateArguments, evaluateFile, results, ran, statusOf, noFailures, noLines]

/-- Expressions given as arguments after a double dash print what the same expressions, one on each
line of a text file, have written to the results file, and both runs have the same status, provided
the results file can be opened.  If not, the run on the file breaks off with the reason.  The one run
prints in rounds and the other writes in rounds. -/
theorem arguments_agree_with_file {xs : List Text} (nonempty : xs ≠ []) (lines : ∀ x ∈ xs, TrimmedLine x)
    {s : FileStore} {t : Text} (plain : t.head? ≠ some '-')
    (suffix : (FilePath.parse t).suffix = textEnding)
    (there : s.open? (FilePath.parse t) = .ok (.file (Utf8.encode (Text.join ['\n'] xs))))
    (h : Host) (j j' : Journal) (s' : FileStore) (input input' : Text) :
    ∃ printed output, run h j s' input (doubleDash :: xs) = .ok printed ∧
      printed.output = (evaluateInRounds s' xs).output ∧ (FilePath.parse t).results = .ok output ∧
      (∀ q, s.place? output = .ok q → ∃ written, run h j' s input' [fileOption, t] = .ok written ∧
        written.store = (Batch.runInRounds h s defaultEncoding (FilePath.parse t) output).store ∧
        written.store.open? output = .ok (.file (Utf8.encode printed.output)) ∧
        readText written.store defaultEncoding output = .ok printed.output ∧
        written.status = printed.status) ∧
      ∀ f, s.place? output = .error f →
        ∃ records, run h j' s input' [fileOption, t] = .error (.run (.write f), records) := by
  obtain ⟨output, results⟩ := FilePath.exists_results suffix
  obtain ⟨_, printed⟩ := run_doubleDash h j s' input nonempty
  have read := readSource_of_encoded suffix (return_not_mem_join lines) there h
  obtain ⟨records, ran⟩ := run_file j' input' plain there results read
  have stored := congrArg Prod.snd (Batch.run_of_read read output)
  rw [Batch.expressions_join lines] at ran stored
  refine ⟨_, output, printed, by rw [evaluateInRounds_eq]; rfl, results, fun q place => ?_,
    fun f noPlace => ⟨records, ?_⟩⟩
  · rw [place] at ran stored
    have written := FileStore.open?_insert place (Utf8.encode (Batch.resultsText (xs.map compute)))
    have feeds := Batch.return_not_mem_resultsText fun x hx => (lines x hx).unbroken
    refine ⟨_, ran, ?_, written, readText_of_encoded feeds written, rfl⟩
    rw [Batch.runInRounds_eq]
    exact stored.symm
  · rw [noPlace] at ran
    exact ran

/-- Expressions that look like an option or a line of results. -/
theorem arguments_agree_with_file_odd :
    let h : Host := .usual fun _ _ => none
    let xs := ["--file".toList, "1 = 1".toList, "-2".toList]
    let s : FileStore :=
      ⟨[(FilePath.parse "a.txt".toList, .file (Utf8.encode (Text.join ['\n'] xs)))]⟩
    ∃ printed written, run h .start .empty [] (doubleDash :: xs) = .ok printed ∧
      run h .start s [] [fileOption, "a.txt".toList] = .ok written ∧
      written.store.open? (FilePath.parse "a_txt_results.txt".toList)
        = .ok (.file (Utf8.encode printed.output)) ∧
      written.status = printed.status := by
  intro h xs s
  have lines : ∀ x ∈ xs, TrimmedLine x := by
    have checked : ∀ x ∈ xs, x ≠ [] ∧ Text.trim x = x ∧ Text.Unbroken x := by decide
    exact fun x hx => ⟨(checked x hx).1, (checked x hx).2.1, (checked x hx).2.2⟩
  obtain ⟨printed, output, ran, -, results, opened, -⟩ :=
    arguments_agree_with_file (t := "a.txt".toList) (s := s) (by decide) lines (by decide) (by decide)
      (by rfl) h .start .start .empty [] []
  obtain rfl : FilePath.parse "a_txt_results.txt".toList = output :=
    Except.ok.inj (Eq.trans (by rfl) results)
  obtain ⟨written, ran', -, there, -, status⟩ := opened _ (by rfl)
  exact ⟨printed, written, ran, ran', there, status⟩

/-- A directory may stand where the results file would. -/
theorem file_run_needs_a_place :
    let h : Host := .usual fun _ _ => none
    let xs := ["1+1".toList]
    let s : FileStore :=
      ⟨[(FilePath.parse "a.txt".toList, .file (Utf8.encode (Text.join ['\n'] xs))),
        (FilePath.parse "a_txt_results.txt".toList, .directory)]⟩
    (∀ x ∈ xs, x ≠ [] ∧ Text.trim x = x ∧ Text.Unbroken x) ∧
      s.open? (FilePath.parse "a.txt".toList) = .ok (.file (Utf8.encode (Text.join ['\n'] xs))) ∧
      (∃ printed, run h .start s [] (doubleDash :: xs) = .ok printed) ∧
      ∀ written, run h .start s [] [fileOption, "a.txt".toList] ≠ .ok written := by
  intro h xs s
  have there : s.open? (FilePath.parse "a.txt".toList)
      = .ok (.file (Utf8.encode (Text.join ['\n'] xs))) := by rfl
  have results : (FilePath.parse "a.txt".toList).results
      = .ok (FilePath.parse "a_txt_results.txt".toList) := by rfl
  have noPlace : s.place? (FilePath.parse "a_txt_results.txt".toList) = .error .isDirectory := by rfl
  obtain ⟨_, printed⟩ := run_doubleDash h .start s [] (show xs ≠ [] by decide)
  obtain ⟨records, ran⟩ := run_file .start [] (by decide) there results
    (readSource_of_encoded (by decide) (by decide) there h)
  rw [noPlace] at ran
  exact ⟨by decide, there, ⟨_, printed⟩, fun written => by rw [ran]; simp⟩

end Program

end DeskCalc
