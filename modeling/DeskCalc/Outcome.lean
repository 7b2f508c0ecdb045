import DeskCalc.Decimal.Layout
import DeskCalc.Expression.Building
import DeskCalc.Journal

/-! Outcomes: what evaluating an expression gave, the text of a result and the line of an outcome. -/

namespace DeskCalc

/-- What evaluating an expression gave: a result or the message of an error. -/
structure Outcome where
  expression : Text
  result : Option Float
  error : Option Text
  deriving DecidableEq

namespace Outcome

/-- An outcome is good unless it has an error, whatever its result. -/
def ok (o : Outcome) : Bool := o.error.isNone

def success (expression : Text) (v : Float) : Outcome := ⟨expression, some v, none⟩

def failure (expression message : Text) : Outcome := ⟨expression, none, some message⟩

end Outcome

/-- The integer of a number, if it has no fraction. -/
def integer? (x : Float) : Option Int :=
  match Binary64.decode x with
  | .finite negative a =>
    if a.quanta % 2 ^ 1074 = 0 then
      let n : Int := (a.quanta / 2 ^ 1074 : Nat)
      some (if negative then -n else n)
    else none
  | _ => none

/-- The text of a result.  An integer below `10 ^ 15` is written without a fraction. -/
def resultText (x : Float) : Text :=
  match integer? x with
  | some n => if n.natAbs < 10 ^ 15 then Text.ofInt n else Decimal.write x
  | none => Decimal.write x

def resultMark : Text := " = ".toList

def errorMark : Text := " -> ERROR: ".toList

/-- The line of an outcome; an error comes before a result. -/
def Outcome.line (o : Outcome) : Text :=
  match o.error with
  | some message => o.expression ++ errorMark ++ message
  | none => o.expression ++ resultMark ++ (o.result.elim [] resultText)

/-- There is no number to write. -/
structure NoResult where

def NoResult.message (_ : NoResult) : Text := "must be real number, not NoneType".toList

def resultText? : Option Float → Except NoResult Text
  | some x => .ok (resultText x)
  | none => .error ⟨⟩

/-- The line of an outcome, which has an error or a result. -/
def Outcome.line? (o : Outcome) : Except NoResult Text :=
  if o.error.isNone && o.result.isNone then .error ⟨⟩ else .ok o.line

/-- Evaluates an expression.  An outcome reports what is wrong with the expression itself; any other
error breaks the evaluation off. -/
def compute? (e : Text) : Except CalcError Outcome :=
  match calculate e with
  | .ok v => .ok (.success e v)
  | .error err => if err.isReported then .ok (.failure e err.message) else .error err

/-- No evaluation breaks off. -/
theorem compute?_ne_error (e : Text) (err : CalcError) : compute? e ≠ .error err := by
  unfold compute?
  rcases calculate_cases e with ⟨_, _, _, _, h⟩ | ⟨_, _, h⟩ <;> simp [h, CalcError.isReported]

def compute (e : Text) : Outcome :=
  match h : compute? e with
  | .ok o => o
  | .error err => absurd h (compute?_ne_error e err)

@[simp] theorem compute?_eq (e : Text) : compute? e = .ok (compute e) := by
  unfold compute
  split
  · assumption
  · next err h => exact absurd h (compute?_ne_error e err)

/-- The records of putting the tree of an expression together: its tokens, if it has any. -/
def buildRecords (e : Text) : List Record :=
  if e.isEmpty then []
  else match tokenize (Expression.stripPending e) with
    | .ok tokens =>
      [⟨.debug, "🌳 Tokens for ".toList ++ Text.quoted e ++ ": ".toList
        ++ Text.quotedList (tokens.map Token.text)⟩]
    | .error _ => []

def valueRecord (e : Text) : Except CalcError Float → Record
  | .ok v => ⟨.debug, "🧮✅ ".toList ++ e ++ " = ".toList ++ Decimal.write v⟩
  | .error err =>
    ⟨.error, "🧮❌ Could not evaluate ".toList ++ Text.quoted e ++ ": ".toList ++ err.message⟩

/-- The records of evaluating an expression: its tokens, and the value or the error. -/
def computeRecords (e : Text) : List Record := buildRecords e ++ [valueRecord e (calculate e)]

end DeskCalc
