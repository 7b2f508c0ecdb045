import DeskCalc.Proofs.Content
import DeskCalc.Proofs.Modes
import DeskCalc.Proofs.Reading

/-! The program with a file.  A command line that is accepted names a file that is there, and the
file is gone through in one of four ways: its results are written, their place cannot be opened, or
the file cannot be read, which is reported or breaks the program off.  A file that cannot be read
changes nothing, and one that can changes what its results file holds and nothing else. -/

namespace DeskCalc

/-! ### The file that is named -/

/-- The file of accepted settings is there, at a path that was spelt out. -/
theorem Settings.exists_file {s : FileStore} {arguments : List Text} {settings : Settings}
    {p : FilePath} (parsed : Settings.parse s arguments = .ok settings) (file : settings.file? = some p) :
    s.isFile p = true ∧ ∃ t, p = FilePath.parse t := by
  obtain ⟨a, checked⟩ : ∃ a, Settings.check s a = .ok settings := by
    unfold parse at parsed
    grind
  obtain ⟨value?, named⟩ : ∃ value?, checkFile s value? = .ok (some p) := by
    unfold check at checked
    grind
  unfold checkFile at named
  grind

theorem FileStore.isFile_of_no_parts {s : FileStore} {p : FilePath} (none : p.parts = []) :
    s.isFile p = false := by
  have directory : s.isDirectory ⟨p.root, []⟩ = true := by simp [isDirectory]
  unfold isFile open?
  cases led : s.resolve p with
  | error f => rfl
  | ok q =>
    have start : q = ⟨p.root, []⟩ := by
      simp only [resolve, none, follow] at led
      grind
    simp only [start, directory, if_true]
    rfl

/-- A path that is spelt out and leads to a file has a results file beside it. -/
theorem FilePath.exists_results_of_isFile {s : FileStore} {t : Text}
    (file : s.isFile (FilePath.parse t) = true) : ∃ output, (FilePath.parse t).results = .ok output := by
  -- Without parts the path would lead to the directory where it starts.
  have parts : (FilePath.parse t).parts ≠ [] := by
    intro none
    rw [FileStore.isFile_of_no_parts none] at file
    cases file
  have named : (FilePath.parse t).name ≠ [] := by
    rw [name, List.getLast?_eq_some_getLast parts, Option.getD_some]
    have kept := List.getLast_mem parts
    have whole := (List.mem_filter.1 kept).2
    simp only [Bool.and_eq_true, decide_eq_true_eq] at whole
    exact whole.1
  exact ⟨_, if_neg named⟩

namespace Program

/-- The ways to go through the file at `p`, whose results belong at `output`. -/
inductive FileEnd (h : Host) (s : FileStore) (p output : FilePath) :
    Except (Abort × List Record) Step → Prop
  | written {c : Text} {q : FilePath} {records : List Record}
      (read : readSource h s defaultEncoding p = .ok c) (place : s.place? output = .ok q) :
      FileEnd h s p output (.ok {
        output := output.toText ++ ['\n']
        failures := Batch.failures ((Batch.expressions c).map compute)
        store := s.insert q (.file (Utf8.encode (Batch.resultsText ((Batch.expressions c).map compute))))
        records })
  | blocked {c : Text} {f : FileFault} {records : List Record}
      (read : readSource h s defaultEncoding p = .ok c) (noPlace : s.place? output = .error f) :
      FileEnd h s p output (.error (.run (.write f), records))
  | reported {e : ReadError} {text : Text} (unread : readSource h s defaultEncoding p = .error e)
      (known : e.isReported = true) (shown : e.message? = some text) :
      FileEnd h s p output (.ok ⟨[], 1, s, readRecords p ++ [unreadRecord p text]⟩)
  | escaped {e : ReadError} (unread : readSource h s defaultEncoding p = .error e)
      (unknown : e.isReported = false) :
      FileEnd h s p output (.error (.run (.read e), readRecords p))

theorem evaluateFile_end {h : Host} {s : FileStore} {p output : FilePath}
    (results : p.results = .ok output) : FileEnd h s p output (evaluateFile h s p) := by
  unfold evaluateFile
  rw [results]
  cases read : readSource h s defaultEncoding p with
  | error e =>
    simp only [Batch.run, on_readFrom, read]
    cases known : e.isReported with
    | true =>
      obtain ⟨text, shown⟩ := ReadError.exists_message known
      simpa [shown] using FileEnd.reported read known shown
    | false => exact .escaped read known
  | ok c =>
    have ran := Batch.run_of_read read output
    cases place : s.place? output with
    | error f =>
      simp only [place, Prod.mk.injEq] at ran
      simpa only [ran] using FileEnd.blocked read place
    | ok q =>
      simp only [place, Prod.mk.injEq] at ran
      simpa only [ran] using FileEnd.written read place

/-! ### The report -/

/-- What the file mode gives, whether a file is named or not. -/
def fileStep (h : Host) (s : FileStore) (settings : Settings) : Except (Abort × List Record) Step :=
  match settings.file? with
  | some p => evaluateFile h s p
  | none => .ok ⟨[], 0, s, []⟩

/-- What the interactive mode gives, whether it is asked for or not. -/
def sessionStep (s : FileStore) (input : Text) (settings : Settings) : Step :=
  if settings.interactive then converse s input else ⟨[], 0, s, []⟩

/-- What the modes give together when the file mode gives `second`. -/
def reportOf (j : Journal) (s : FileStore) (input : Text) (settings : Settings) (second : Step) :
    Report :=
  let first := evaluateArguments s settings.expressions
  let third := sessionStep second.store input settings
  { status := if first.failures + second.failures = 0 then 0 else 1
    output := first.output ++ second.output ++ third.output
    errorOutput := []
    store := third.store
    records := (journalFor j settings).shown (first.records ++ second.records ++ third.records) }

@[simp] theorem store_sessionStep (s : FileStore) (input : Text) (settings : Settings) :
    (sessionStep s input settings).store = s := by
  unfold sessionStep
  split <;> rfl

@[simp] theorem output_sessionStep (s : FileStore) (input : Text) (settings : Settings) :
    (sessionStep s input settings).output
      = if settings.interactive then Session.transcript Display.zero input else [] := by
  unfold sessionStep
  split <;> rfl

section

variable {h : Host} {s : FileStore} {arguments : List Text} {settings : Settings} {p : FilePath}
  (parsed : Settings.parse s arguments = .ok settings)
include parsed

/-- A program that was accepted gives the report of its modes, unless the file mode breaks it off. -/
theorem run_eq (j : Journal) (input : Text) :
    run h j s input arguments = ((fileStep h s settings).mapError fun (abort, records) =>
      (abort, (journalFor j settings).shown
        ((evaluateArguments s settings.expressions).records ++ records))).map
      (reportOf j s input settings) := by
  rw [run, parsed]
  show perform h j s input settings = _
  unfold perform fileStep
  cases file : settings.file? with
  | none => simp [reportOf, sessionStep, evaluateArguments, Except.map, Except.mapError]
  | some p =>
    have store : (evaluateArguments s settings.expressions).store = s := rfl
    simp only [store]
    cases evaluateFile h s p with
    | error a => rfl
    | ok second => rfl

theorem fileStep_end (file : settings.file? = some p) :
    ∃ output, p.results = .ok output ∧ FileEnd h s p output (fileStep h s settings) := by
  obtain ⟨there, t, rfl⟩ := Settings.exists_file parsed file
  obtain ⟨output, results⟩ := FilePath.exists_results_of_isFile there
  refine ⟨output, results, ?_⟩
  rw [fileStep, file]
  exact evaluateFile_end results

/-- A file that cannot be read, for a reason that is reported, counts as one failure and lets the other
modes go on. -/
theorem run_of_reported (j : Journal) (input : Text) (file : settings.file? = some p) {e : ReadError}
    (unread : readSource h s defaultEncoding p = .error e) (known : e.isReported = true) :
    ∃ text, e.message? = some text ∧ run h j s input arguments
      = .ok (reportOf j s input settings ⟨[], 1, s, readRecords p ++ [unreadRecord p text]⟩) := by
  obtain ⟨output, -, ends⟩ := fileStep_end parsed file
  rw [run_eq parsed]
  generalize fileStep h s settings = step at ends
  cases ends with
  | written read | blocked read =>
    rw [unread] at read
    cases read
  | reported unread' known' shown =>
    cases unread.symm.trans unread'
    exact ⟨_, shown, rfl⟩
  | escaped unread' unknown =>
    cases unread.symm.trans unread'
    rw [known] at unknown
    cases unknown

end

end Program

/-! ### What a run leaves -/

/-- What a run on a file leaves in its store, when its results belong at `output`.  Reading takes
place in a new directory, outside of which nothing changes meanwhile.  If the file cannot be read,
all is afterwards as it was.  If it can, no directory comes or goes, and every path that does not
lead to the place of the results leads to what it did.  The program that runs into an archive it
cannot use, or into bytes that are no text, goes through its other modes, prints no path for the
file, and ends with status 1. -/
theorem unread_file_changes_nothing (h : Host) (s : FileStore) :
    (∀ (encoding : Text) (input output : FilePath),
      let r := Batch.runInRounds h s encoding input output
      r = Batch.run h s encoding input output ∧
      (∀ t s', h.makeTemporary s = .ok (t, s') → s.isDirectory t = false ∧ s.get? t = none ∧
        ∀ format, ((readArchive h format encoding input t).on s').2.remove t = s) ∧
      (∀ e, readSource h s encoding input = .error e → r.result = .error (.read e) ∧ r.store = s) ∧
      (∀ c, readSource h s encoding input = .ok c → ∀ p,
        r.store.isDirectory p = s.isDirectory p ∧
          (¬ s.SamePlace p output → r.store.content? p = s.content? p))) ∧
    ∀ (j : Journal) (input : Text) (arguments : List Text) (settings : Settings) (p : FilePath)
      (e : ReadError), Settings.parse s arguments = .ok settings → settings.file? = some p →
      readSource h s defaultEncoding p = .error e → (e.IsArchiveError ∨ e.IsDecodeError) →
      ∃ report, Program.run h j s input arguments = .ok report ∧ report.status = 1 ∧ report.store = s ∧
        report.output = (Program.evaluateInRounds s settings.expressions).output
          ++ if settings.interactive then Session.transcript Display.zero input else [] := by
  refine ⟨fun encoding input output => ?_,
    fun j input arguments settings p e parsed file unread known => ?_⟩
  · rw [Batch.runInRounds_eq]
    refine ⟨rfl, fun t s' made => ?_, fun e unread => ?_, fun c read p => ?_⟩
    · obtain ⟨-, -, -, free, nothing, -⟩ := Host.makeTemporary_spec made
      refine ⟨free, nothing, fun format => ?_⟩
      rw [remove_readArchive made, Host.remove_makeTemporary made]
    · rw [Batch.run, on_readFrom, unread]
      exact ⟨rfl, rfl⟩
    · have ran := congrArg Prod.snd (Batch.run_of_read read output)
      cases place : s.place? output with
      | error f =>
        simp only [place] at ran
        simp [ran]
      | ok q =>
        simp only [place] at ran
        rw [ran]
        refine ⟨FileStore.isDirectory_insert_of_place place p, fun apart => ?_⟩
        have led := (FileStore.place?_eq_ok_iff.1 place).1
        exact FileStore.content?_insert place fun led' => apart ⟨q, led', led⟩
  · obtain ⟨text, -, ran⟩ := Program.run_of_reported parsed j input file unread
      (ReadError.isReported_iff.2 known)
    refine ⟨_, ran, ?_, by simp [Program.reportOf], ?_⟩
    · simp [Program.reportOf]
    · simp [Program.reportOf, Program.evaluateInRounds_eq]

/-- An archive of no supported format, and the results of an earlier run; then an archive whose text
would come out beside the temporary directory. -/
theorem unread_file_changes_nothing_unsupported :
    let h := Host.holding [0xfd] [⟨"../a.txt".toList, .file [0x31]⟩]
    let p := FilePath.parse "a.rar".toList
    let q := FilePath.parse "a.tar.xz".toList
    let output := FilePath.parse "a_rar_results.txt".toList
    let s : FileStore := ⟨[(⟨['/'], h.temporary⟩, .directory), (p, .file [0x31]), (q, .file [0xfd]),
      (output, .file [0x32])]⟩
    readSource h s defaultEncoding p = .error (.unsupportedFormat ".rar".toList) ∧
      (Batch.run h s defaultEncoding p output).store.content? output = some (.file [0x32]) ∧
      readSource h s defaultEncoding q = .error (.outsideDirectory .tarXz) ∧
      (Batch.run h s defaultEncoding q output).store = s ∧
      ∃ report, Program.run h .start s [] [fileOption, "a.rar".toList] = .ok report ∧
        report.status = 1 ∧ report.store = s ∧ report.output = [] := by
  intro h p q output s
  have unread : readSource h s defaultEncoding p = .error (.unsupportedFormat ".rar".toList) := by rfl
  have unread' : readSource h s defaultEncoding q = .error (.outsideDirectory .tarXz) := by rfl
  obtain ⟨runs, programs⟩ := unread_file_changes_nothing h s
  obtain ⟨rounds, -, failed, -⟩ := runs defaultEncoding p output
  obtain ⟨rounds', -, failed', -⟩ := runs defaultEncoding q output
  obtain ⟨report, ran, status, store, printed⟩ := programs .start [] [fileOption, "a.rar".toList] _ p _
    (Settings.parse_file (by decide) (e := .file [0x31]) (by rfl)) rfl unread (.inl (.inl ⟨_, rfl⟩))
  refine ⟨unread, ?_, unread', ?_, report, ran, status, store, printed⟩
  · rw [← rounds, (failed _ unread).2]
    rfl
  · rw [← rounds', (failed' _ unread').2]

end DeskCalc
