import DeskCalc.Proofs.Lines
import DeskCalc.Proofs.Rounds
import DeskCalc.Proofs.Temporary
import DeskCalc.Proofs.Utf8

/-! The results file of a run.  A run that has read its input gives the outcomes in the order of the
expressions.  The file that it writes has one line for each of them, and what stands on a line
depends on its own expression only. -/

namespace DeskCalc

theorem Text.unifyLineEnds_eq {t : Text} (h : '\r' ∉ t) : unifyLineEnds t = t := by
  induction t with
  | nil => rfl
  | cons c t ih =>
    obtain ⟨notReturn, rest⟩ : c ≠ '\r' ∧ '\r' ∉ t := by simpa [eq_comm] using h
    refine (unifyLineEnds.eq_3 c t ?_).trans ?_
    · rintro - rfl
      exact absurd rfl notReturn
    · rw [if_neg notReturn, ih rest]

theorem Text.Unbroken.return_not_mem {t : Text} (h : Unbroken t) : '\r' ∉ t :=
  fun there => absurd (h _ there) (by decide)

/-- In the usual encoding bytes are a text, or it is reported where they stop being one. -/
theorem readBytes_defaultEncoding (bytes : List UInt8) : readBytes defaultEncoding bytes
    = ((Encoding.utf8.decode bytes).mapError ReadError.undecodable).map Text.unifyLineEnds := by
  have encoding : Encoding.ofName? defaultEncoding = some .utf8 := by decide
  have plain : ¬ defaultEncoding.contains '\x00' = true := by decide
  simp only [readBytes, if_neg plain, decodeNamed, encoding]
  cases Encoding.utf8.decode bytes <;> rfl

/-- A text with line feeds only is read back from its bytes. -/
theorem readBytes_encode {t : Text} (feeds : '\r' ∉ t) :
    readBytes defaultEncoding (Utf8.encode t) = .ok t := by
  rw [readBytes_defaultEncoding, Encoding.decode, Utf8.decodeFrom_encode]
  simp only [Except.mapError, Except.map, Text.unifyLineEnds_eq feeds]

theorem readText_of_encoded {s : FileStore} {p : FilePath} {t : Text} (feeds : '\r' ∉ t)
    (there : s.open? p = .ok (.file (Utf8.encode t))) : readText s defaultEncoding p = .ok t := by
  rw [readText_of_file there, readBytes_encode feeds]

theorem readSource_of_encoded {s : FileStore} {p : FilePath} {t : Text} (suffix : p.suffix = textEnding)
    (feeds : '\r' ∉ t) (there : s.open? p = .ok (.file (Utf8.encode t))) (h : Host) :
    readSource h s defaultEncoding p = .ok t := by
  rw [readSource_of_text suffix, readText_of_encoded feeds there]

namespace Batch

theorem return_not_mem_resultsText {es : List Text} (h : ∀ e ∈ es, Text.Unbroken e) :
    '\r' ∉ resultsText (es.map compute) := by
  intro there
  simp only [resultsText, List.mem_flatMap, List.mem_map] at there
  obtain ⟨_, ⟨e, he, rfl⟩, there⟩ := there
  rcases List.mem_append.1 there with there | there
  · exact (Outcome.unbroken_line (h e he)).return_not_mem there
  · exact absurd there (by decide)

/-- What a run comes to once the input is read. -/
theorem run_of_read {h : Host} {s : FileStore} {encoding : Text} {input : FilePath} {c : Text}
    (read : readSource h s encoding input = .ok c) (output : FilePath) :
    ((run h s encoding input output).result, (run h s encoding input output).store)
      = match s.place? output with
        | .ok q => (.ok ((expressions c).map compute),
            s.insert q (.file (Utf8.encode (resultsText ((expressions c).map compute)))))
        | .error f => (.error (.write f), s) := by
  simp only [run, on_readFrom, read, FileStore.write_eq]
  cases s.place? output <;> rfl

theorem line_of_build_error {e : Text} {err : BuildError} (fault : Expression.build e = .error err) :
    (compute e).line = e ++ " -> ERROR: ".toList ++ err.message := by
  obtain ⟨p, rfl⟩ := Expression.exists_parse_of_build fault
  rw [compute_of_build_error fault]
  rfl

/-- A run whose input is read goes through the expressions in rounds.  It gives the outcome of every
expression, in order, and leaves a results file with the line of each, provided the results file can
be opened; if not, the run ends with the reason and changes nothing.  The lines of the file are the
lines of the outcomes, one for each expression.  An expression without a tree has a line with its
error, and the line in any place is the same for every input with the same expression in that place.
-/
theorem run_writes_one_line_each {h : Host} {s : FileStore} {encoding : Text} {input : FilePath} {c : Text}
    (read : readSource h s encoding input = .ok c) (output : FilePath) :
    let es := expressions c
    let content := resultsText (es.map compute)
    let r := run h s encoding input output
    r = runInRounds h s encoding input output ∧
    (∀ q, s.place? output = .ok q →
      r.result = .ok (es.map compute) ∧ r.store.open? output = .ok (.file (Utf8.encode content)) ∧
        readText r.store defaultEncoding output = .ok content ∧ ∀ p ≠ q, r.store.get? p = s.get? p) ∧
    (∀ f, s.place? output = .error f → r.result = .error (.write f) ∧ r.store = s) ∧
    content = es.flatMap (fun e => (compute e).line ++ ['\n']) ∧
    Text.lines content = es.map (fun e => (compute e).line) ∧
    (∀ e ∈ es, ∀ err, Expression.build e = .error err →
      (compute e).line = e ++ " -> ERROR: ".toList ++ err.message) ∧
    ∀ (c' : Text) (i : Nat), (expressions c')[i]? = es[i]? →
      (Text.lines (resultsText ((expressions c').map compute)))[i]? = (Text.lines content)[i]? := by
  intro es content r
  have unbroken (c : Text) : ∀ e ∈ expressions c, Text.Unbroken e :=
    fun e he => unbroken_of_mem_expressions he
  have ran := run_of_read read output
  refine ⟨(runInRounds_eq h s encoding input output).symm, fun q place => ?_, fun f noPlace => ?_, ?_,
    lines_resultsText (unbroken c), fun e _ err fault => line_of_build_error fault,
    fun c' i same => ?_⟩
  · simp only [place, Prod.mk.injEq] at ran
    obtain ⟨result, store⟩ := ran
    have there : r.store.open? output = .ok (.file (Utf8.encode content)) := by
      rw [store]
      exact FileStore.open?_insert place _
    refine ⟨result, there, ?_, fun p other => ?_⟩
    · exact readText_of_encoded (return_not_mem_resultsText (unbroken c)) there
    · rw [store, FileStore.get?_insert_of_ne other]
  · simp only [noPlace, Prod.mk.injEq] at ran
    exact ran
  · simp [content, resultsText, List.flatMap_map]
  · rw [lines_resultsText (unbroken c'), lines_resultsText (unbroken c), List.getElem?_map,
      List.getElem?_map, same]

/-- One good expression between a blank line and a bad one. -/
theorem run_writes_one_line_each_mixed :
    let h : Host := .usual fun _ _ => none
    let s : FileStore := ⟨[(FilePath.parse "a.txt".toList, .file (Utf8.encode "\n1\n x".toList))]⟩
    let input := FilePath.parse "a.txt".toList
    let output := FilePath.parse "out.txt".toList
    let r := run h s defaultEncoding input output
    readSource h s defaultEncoding input = .ok "\n1\n x".toList ∧
      s.place? output = .ok output ∧ r.result = .ok [compute ['1'], compute ['x']] ∧
      readText r.store defaultEncoding output
        = .ok ((compute ['1']).line ++ '\n' :: (compute ['x']).line ++ ['\n']) := by
  intro h s input output r
  have read : readSource h s defaultEncoding input = .ok "\n1\n x".toList :=
    readSource_of_encoded (by decide) (by decide) (by rfl) h
  have place : s.place? output = .ok output := by rfl
  have listed : expressions "\n1\n x".toList = [['1'], ['x']] := by decide
  obtain ⟨-, opened, -⟩ := run_writes_one_line_each read output
  obtain ⟨result, -, back, -⟩ := opened output place
  rw [listed] at result back
  exact ⟨read, place, result, by simpa [resultsText] using back⟩

/-- A results file in a directory that is not there cannot be opened. -/
theorem run_needs_a_place :
    let h : Host := .usual fun _ _ => none
    let s : FileStore := ⟨[(FilePath.parse "a.txt".toList, .file (Utf8.encode "1+1".toList))]⟩
    let input := FilePath.parse "a.txt".toList
    let output := FilePath.parse "missing/out.txt".toList
    readSource h s defaultEncoding input = .ok "1+1".toList ∧
      (run h s defaultEncoding input output).result
        ≠ .ok ((expressions "1+1".toList).map compute) ∧
      (run h s defaultEncoding input output).store.open? output
        ≠ .ok (.file (Utf8.encode (resultsText ((expressions "1+1".toList).map compute)))) := by
  intro h s input output
  have read : readSource h s defaultEncoding input = .ok "1+1".toList :=
    readSource_of_encoded (by decide) (by decide) (by rfl) h
  have noPlace : s.place? output = .error .notFound := by rfl
  have ran := run_of_read read output
  simp only [noPlace, Prod.mk.injEq] at ran
  obtain ⟨result, store⟩ := ran
  have absent : s.open? output = .error .notFound := by rfl
  rw [result, store, absent]
  exact ⟨read, by simp, by simp⟩

end Batch

end DeskCalc
