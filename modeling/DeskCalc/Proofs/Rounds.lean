import DeskCalc.Program
import DeskCalc.Proofs.Writing

/-! Evaluating expressions in rounds, one expression a round.  A round on a file puts the line of its
expression at the end of what the file holds, and a round on the arguments prints it.  What holds
after any number of rounds is kept by one more, so that all rounds together come to what a run gives
at once. -/

namespace DeskCalc

theorem FileStore.insert_insert (s : FileStore) (q : FilePath) (e e' : Entry) :
    (s.insert q e).insert q e' = s.insert q e' := by
  simp [insert, List.filter_filter]

/-- Puts bytes at the end of the file at a path that is spelt as it is kept. -/
def FileStore.append (s : FileStore) (q : FilePath) (bytes : List UInt8) : FileStore :=
  match s.get? q with
  | some (.file before) => s.insert q (.file (before ++ bytes))
  | _ => s

theorem FileStore.append_insert (s : FileStore) (q : FilePath) (before bytes : List UInt8) :
    (s.insert q (.file before)).append q bytes = s.insert q (.file (before ++ bytes)) := by
  rw [append, get?_insert_self]
  exact insert_insert s q _ _

theorem Utf8.encode_append (t u : Text) : encode (t ++ u) = encode t ++ encode u :=
  List.flatMap_append

namespace Batch

theorem resultsText_concat (outcomes : List Outcome) (o : Outcome) :
    resultsText (outcomes ++ [o]) = resultsText outcomes ++ (o.line ++ ['\n']) := by
  simp [resultsText]

theorem evaluationRecords_concat (number : Nat) (es : List Text) (e : Text) :
    evaluationRecords number (es ++ [e])
      = evaluationRecords number es ++ expressionRecords (number + es.length) e := by
  induction es generalizing number with
  | nil => simp [evaluationRecords]
  | cons d es ih =>
    simp only [List.cons_append, evaluationRecords, ih, List.append_assoc, List.length_cons]
    congr 3
    omega

/-- How far a run on a file has come: the number of its next expression, the outcomes so far, and the
files and records as they are. -/
structure Progress where
  number : Nat
  outcomes : List Outcome
  store : FileStore
  records : List Record

/-- Evaluates one expression and puts its line at the end of the results file. -/
def Progress.round (q : FilePath) (p : Progress) (e : Text) : Progress :=
  let o := compute e
  { number := p.number + 1
    outcomes := p.outcomes ++ [o]
    store := p.store.append q (Utf8.encode (o.line ++ ['\n']))
    records := p.records ++ expressionRecords p.number e }

/-- A run that opens an empty results file and then goes through the expressions in rounds. -/
def runInRounds (h : Host) (s : FileStore) (encoding : Text) (input output : FilePath) : Run :=
  match (readFrom h encoding input).on s with
  | (.error e, left) => ⟨.error (.read e), left, readRecords input⟩
  | (.ok content, left) =>
    let es := expressions content
    let opening := readRecords input ++ [startRecord es.length input]
    match left.place? output with
    | .error f => ⟨.error (.write f), left, opening⟩
    | .ok q =>
      let last := es.foldl (Progress.round q) ⟨1, [], left.insert q (.file []), opening⟩
      ⟨.ok last.outcomes, last.store, last.records ++ [endRecord output (failures last.outcomes)]⟩

/-- What holds when the expressions `es` are done: the file has their lines, and nothing else has
changed. -/
structure Progress.Done (q : FilePath) (s : FileStore) (opening : List Record) (es : List Text)
    (p : Progress) : Prop where
  number : p.number = 1 + es.length
  outcomes : p.outcomes = es.map compute
  store : p.store = s.insert q (.file (Utf8.encode (resultsText (es.map compute))))
  records : p.records = opening ++ evaluationRecords 1 es

namespace Progress

variable {q : FilePath} {s : FileStore} {opening : List Record}

theorem done_nil (q : FilePath) (s : FileStore) (opening : List Record) :
    Done q s opening [] ⟨1, [], s.insert q (.file []), opening⟩ :=
  ⟨rfl, rfl, rfl, by simp [evaluationRecords]⟩

theorem Done.round {es : List Text} {p : Progress} (h : p.Done q s opening es) (e : Text) :
    (p.round q e).Done q s opening (es ++ [e]) where
  number := by
    rw [Progress.round, h.number, List.length_append, List.length_singleton, Nat.add_assoc]
  outcomes := by rw [Progress.round, h.outcomes, List.map_append, List.map_singleton]
  store := by
    rw [Progress.round, h.store, FileStore.append_insert, List.map_append, List.map_singleton,
      resultsText_concat, Utf8.encode_append _ (_ ++ _)]
  records := by
    rw [Progress.round, h.records, h.number, evaluationRecords_concat, List.append_assoc]

theorem Done.rounds {es : List Text} {p : Progress} (h : p.Done q s opening es) (more : List Text) :
    (more.foldl (Progress.round q) p).Done q s opening (es ++ more) := by
  -- What is to come shrinks while what is done grows, so the induction leaves `es` free.
  induction more generalizing es p with
  | nil => simpa using h
  | cons e more ih => simpa using ih (h.round e)

end Progress

/-- In rounds or at once, a run gives the same. -/
theorem runInRounds_eq (h : Host) (s : FileStore) (encoding : Text) (input output : FilePath) :
    runInRounds h s encoding input output = run h s encoding input output := by
  unfold runInRounds run
  rcases (readFrom h encoding input).on s with ⟨e | content, left⟩
  · rfl
  · simp only [FileStore.write_eq]
    cases left.place? output with
    | error f => rfl
    | ok q =>
      have start := Progress.done_nil q left
        (readRecords input ++ [startRecord (expressions content).length input])
      have last := start.rounds (expressions content)
      simp only [last.outcomes, last.store, last.records, List.nil_append]

end Batch

namespace Program

/-- Evaluates one expression, prints its line and counts it if it failed. -/
def Step.round (p : Step) (e : Text) : Step :=
  let o := compute e
  { p with
    output := p.output ++ (o.line ++ ['\n'])
    failures := if o.ok then p.failures else p.failures + 1
    records := p.records ++ computeRecords e }

/-- Goes through expressions in rounds, printing as it goes. -/
def evaluateInRounds (s : FileStore) (es : List Text) : Step := es.foldl Step.round ⟨[], 0, s, []⟩

theorem evaluateArguments_concat (s : FileStore) (es : List Text) (e : Text) :
    evaluateArguments s (es ++ [e]) = (evaluateArguments s es).round e := by
  cases good : (compute e).ok <;>
    simp [evaluateArguments, Step.round, Batch.resultsText, Batch.failures, good]

theorem foldl_round (s : FileStore) (es more : List Text) :
    more.foldl Step.round (evaluateArguments s es) = evaluateArguments s (es ++ more) := by
  induction more generalizing es with
  | nil => simp
  | cons e more ih =>
    rw [List.foldl_cons, ← evaluateArguments_concat, ih, List.append_assoc, List.singleton_append]

theorem evaluateInRounds_eq (s : FileStore) (es : List Text) :
    evaluateInRounds s es = evaluateArguments s es := foldl_round s [] es

end Program

end DeskCalc
