import DeskCalc.Outcome
import DeskCalc.Reader
import DeskCalc.Text.Characters

/-! Evaluating a file of expressions: one expression on each line that is not blank, and one line of
results for each expression. -/

namespace DeskCalc

namespace Batch

/-- The expressions of a text: its lines without surrounding blanks, of which blank ones are left
out. -/
def expressions (content : Text) : List Text :=
  ((Text.lines content).map Text.trim).filter (· ≠ [])

/-- The text of a results file: a line for each outcome. -/
def resultsText (outcomes : List Outcome) : Text := outcomes.flatMap fun o => o.line ++ ['\n']

def failures (outcomes : List Outcome) : Nat := outcomes.countP (!·.ok)

def startRecord (count : Nat) (input : FilePath) : Record :=
  ⟨.info, "📄 Evaluating ".toList ++ Text.ofNat count ++ " expressions from ".toList
    ++ input.toText⟩

/-- The warning for an expression that failed; expressions are counted from one. -/
def failureRecord (number : Nat) (message : Text) : Record :=
  ⟨.warning, "📄❌ Line ".toList ++ Text.ofNat number ++ " failed: ".toList ++ message⟩

/-- The records of evaluating the expression with the given number. -/
def expressionRecords (number : Nat) (e : Text) : List Record :=
  computeRecords e ++ match (compute e).error with
    | some message => [failureRecord number message]
    | none => []

/-- The records of evaluating expressions, the first of which has the given number. -/
def evaluationRecords : Nat → List Text → List Record
  | _, [] => []
  | number, e :: rest => expressionRecords number e ++ evaluationRecords (number + 1) rest

def endRecord (output : FilePath) (failures : Nat) : Record :=
  ⟨.info, "📄✅ Results written to ".toList ++ output.toText ++ " (".toList ++ Text.ofNat failures
    ++ " errors)".toList⟩

/-- Why a run gave no outcomes. -/
inductive RunError where
  | read (e : ReadError)
  | write (fault : FileFault)

/-- What a run gave, and the files and records it left. -/
structure Run where
  result : Except RunError (List Outcome)
  store : FileStore
  records : List Record

/-- Evaluates the file at `input` and writes the results to `output`.  The results file is opened only
after the input was read, in the store that reading left. -/
def run (h : Host) (s : FileStore) (encoding : Text) (input output : FilePath) : Run :=
  match (readFrom h encoding input).on s with
  | (.error e, left) => ⟨.error (.read e), left, readRecords input⟩
  | (.ok content, left) =>
    let es := expressions content
    let opening := readRecords input ++ [startRecord es.length input]
    let outcomes := es.map compute
    match left.write output (Utf8.encode (resultsText outcomes)) with
    | .error f => ⟨.error (.write f), left, opening⟩
    | .ok written =>
      ⟨.ok outcomes, written,
        opening ++ evaluationRecords 1 es ++ [endRecord output (failures outcomes)]⟩

end Batch

end DeskCalc
