import DeskCalc.Batch
import DeskCalc.Options.Settings
import DeskCalc.Session

/-! The program: expressions given as arguments, then a file of expressions, then a session at the
keyboard, as far as they are asked for.  The exit status is one when an expression or the file failed;
what is typed in a session does not count. -/

namespace DeskCalc

namespace Program

/-- Why the program broke off without a status. -/
inductive Abort where
  | run (e : Batch.RunError)
  | emptyName (e : FilePath.EmptyName)
  | file (fault : FileFault)

/-- What one mode of the program gives: its output, its failures, and the files and records it
leaves. -/
structure Step where
  output : Text
  failures : Nat
  store : FileStore
  records : List Record

/-- Evaluates expressions and prints a line for each. -/
def evaluateArguments (s : FileStore) (es : List Text) : Step :=
  let outcomes := es.map compute
  ⟨Batch.resultsText outcomes, Batch.failures outcomes, s, es.flatMap computeRecords⟩

def unreadRecord (p : FilePath) (message : Text) : Record :=
  ⟨.error, "📄❌ Could not process ".toList ++ p.toText ++ ": ".toList ++ message⟩

/-- Evaluates a file and prints the path of its results.  A file whose error is one to report counts as
a failure; any other error breaks the program off. -/
def evaluateFile (h : Host) (s : FileStore) (p : FilePath) : Except (Abort × List Record) Step :=
  match p.results with
  | .error e => .error (.emptyName e, [])
  | .ok output =>
    let run := Batch.run h s defaultEncoding p output
    match run.result with
    | .ok outcomes =>
      .ok ⟨output.toText ++ ['\n'], Batch.failures outcomes, run.store, run.records⟩
    | .error (.read e) =>
      if e.isReported then
        .ok ⟨[], 1, run.store, run.records ++ [unreadRecord p (e.message?.getD [])]⟩
      else .error (.run (.read e), run.records)
    | .error (.write f) => .error (.run (.write f), run.records)

/-- A session on an empty display. -/
def converse (s : FileStore) (input : Text) : Step :=
  ⟨Session.transcript Display.zero input, 0, s,
    Session.records Display.zero (Session.typedLines input)⟩

/-- What the program leaves: its exit status, its outputs, the files and the records shown. -/
structure Report where
  status : Nat
  output : Text
  errorOutput : Text
  store : FileStore
  records : List Record

def journalFor (j : Journal) (settings : Settings) : Journal :=
  match settings.level? with
  | some level => { j with level }
  | none => j

/-- Does what the settings ask for.  `input` is what is typed. -/
def perform (h : Host) (j : Journal) (s : FileStore) (input : Text) (settings : Settings) :
    Except (Abort × List Record) Report :=
  let journal := journalFor j settings
  let first := evaluateArguments s settings.expressions
  let second : Except (Abort × List Record) Step := match settings.file? with
    | some p => evaluateFile h first.store p
    | none => .ok ⟨[], 0, first.store, []⟩
  match second with
  | .error (abort, records) => .error (abort, journal.shown (first.records ++ records))
  | .ok second =>
    let third : Step :=
      if settings.interactive then converse second.store input else ⟨[], 0, second.store, []⟩
    .ok {
      status := if first.failures + second.failures = 0 then 0 else 1
      output := first.output ++ second.output ++ third.output
      errorOutput := []
      store := third.store
      records := journal.shown (first.records ++ second.records ++ third.records) }

/-- Runs the program on the arguments of a command line. -/
def run (h : Host) (j : Journal) (s : FileStore) (input : Text) (arguments : List Text) :
    Except (Abort × List Record) Report :=
  match Settings.parse s arguments with
  | .error (.ends e) => .ok ⟨e.status, e.output, e.errorOutput, s, []⟩
  | .error (.file fault) => .error (.file fault, [])
  | .ok settings => perform h j s input settings

end Program

end DeskCalc
