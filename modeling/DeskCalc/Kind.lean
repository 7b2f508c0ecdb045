import DeskCalc.Binary64
import DeskCalc.Text.Quoted

/-! The symbols of the calculator.  Four operators join two operands, a number stands by itself, and
three more symbols belong to the display alone.  The rank of a symbol is its place in the list; an
operator of lower rank binds looser. -/

namespace DeskCalc

/-- An operator between two operands, from the loosest to the tightest. -/
inductive Operator where
  | minus
  | plus
  | div
  | times
  deriving DecidableEq, Repr

namespace Operator

def symbol : Operator → Char
  | minus => '-'
  | plus => '+'
  | div => '/'
  | times => 'x'

def ofSymbol? (c : Char) : Option Operator :=
  if c = '-' then some minus
  else if c = '+' then some plus
  else if c = '/' then some div
  else if c = 'x' then some times
  else none

@[simp] theorem ofSymbol?_symbol (o : Operator) : ofSymbol? o.symbol = some o := by
  cases o <;> rfl

theorem ofSymbol?_eq_some {c : Char} {o : Operator} : ofSymbol? c = some o ↔ c = o.symbol := by
  constructor
  · unfold ofSymbol?
    repeat' split
    all_goals simp only [Option.some.injEq, reduceCtorEq, false_implies]
    all_goals rintro rfl; assumption
  · rintro rfl
    exact ofSymbol?_symbol o

def rank : Operator → Nat
  | minus => 1
  | plus => 2
  | div => 3
  | times => 4

/-- One number divided by another.  Nothing is divided by zero. -/
def divide? (a b : Float) : Option Float :=
  if b == Binary64.zero false then none else some (a / b)

/-- The quotient of two numbers.  Dividing by zero gives an infinity with the sign of both operands,
or no number when zero or no number is divided. -/
def quotient? (a b : Float) : Option Float :=
  if b != Binary64.zero false then divide? a b
  else if a == Binary64.zero false || a.isNaN then some Binary64.nan
  else some (Binary64.infinity (Binary64.isNegative a) * Binary64.one (Binary64.isNegative b))

/-- The value of an operator on two operands, in the order they are written, if there is one. -/
def result? : Operator → Float → Float → Option Float
  | minus, a, b => some (a - b)
  | plus, a, b => some (a + b)
  | div, a, b => quotient? a b
  | times, a, b => some (a * b)

/-- A quotient never comes to a division by zero. -/
theorem isSome_quotient? (a b : Float) : (quotient? a b).isSome := by
  unfold quotient? divide?
  by_cases hb : b == Binary64.zero false
  · rw [bne, hb]
    cases a == Binary64.zero false || a.isNaN <;> rfl
  · rw [Bool.not_eq_true] at hb
    rw [bne, hb]
    rfl

theorem isSome_result? (o : Operator) (a b : Float) : (o.result? a b).isSome := by
  cases o with
  | div => exact isSome_quotient? a b
  | _ => rfl

/-- The value of an operator on two operands, in the order they are written. -/
def apply (o : Operator) (a b : Float) : Float := (o.result? a b).get (o.isSome_result? a b)

@[simp] theorem result?_eq (o : Operator) (a b : Float) : o.result? a b = some (o.apply a b) := by
  simp [apply]

/-- The arithmetic of each operator, and what takes the place of a quotient by zero. -/
theorem apply_eq (o : Operator) (a b : Float) : o.apply a b = match o with
    | minus => a - b
    | plus => a + b
    | times => a * b
    | div =>
      if b != Binary64.zero false then a / b
      else if a == Binary64.zero false || a.isNaN then Binary64.nan
      else Binary64.infinity (Binary64.isNegative a) * Binary64.one (Binary64.isNegative b) := by
  apply Option.some.inj
  rw [← result?_eq]
  cases o with
  | div =>
    show quotient? a b = _
    unfold quotient? divide?
    rw [bne]
    cases b == Binary64.zero false with
    | true => cases a == Binary64.zero false || a.isNaN <;> rfl
    | false => rfl
  | _ => rfl

end Operator

inductive Kind where
  | operator (o : Operator)
  | number
  | percent
  | decimal
  | negate
  deriving DecidableEq, Repr

namespace Kind

def all : List Kind :=
  [operator .minus, operator .plus, operator .div, operator .times, number, percent, decimal, negate]

def rank : Kind → Nat
  | operator o => o.rank
  | number => 5
  | percent => 6
  | decimal => 7
  | negate => 8

def name : Kind → Text
  | operator .minus => "MINUS".toList
  | operator .plus => "PLUS".toList
  | operator .div => "DIV".toList
  | operator .times => "TIMES".toList
  | number => "NUMBER".toList
  | percent => "PERCENT".toList
  | decimal => "DECIMAL".toList
  | negate => "NEGATE".toList

/-- The character of a kind on the display; a number has none of its own. -/
def symbol? : Kind → Option Char
  | operator o => some o.symbol
  | number => none
  | percent => some '%'
  | decimal => some '.'
  | negate => some '_'

/-- Whether the kind joins two operands. -/
def isBinary : Kind → Bool
  | operator _ => true
  | _ => false

def ofRank? (n : Int) : Option Kind := all.find? fun kind => (kind.rank : Int) == n

def ofName? (t : Text) : Option Kind := all.find? fun kind => kind.name == t

theorem rank_operator_lt (o : Operator) : (operator o).rank < number.rank := by
  cases o <;> decide

end Kind

inductive KindError where
  | unknownRank (n : Int)
  | unknownSymbol (key : Text)
  deriving DecidableEq

def KindError.message : KindError → Text
  | .unknownRank n => Text.ofInt n ++ " is not a valid OperatorKind".toList
  | .unknownSymbol key => Text.quoted key

/-- The kind of a rank, or the reason why there is none. -/
def Kind.ofRank (n : Int) : Except KindError Kind :=
  match ofRank? n with
  | some kind => .ok kind
  | none => .error (.unknownRank n)

/-- The kind of the operator with the symbol `key`, or the reason why there is none. -/
def Kind.ofSymbol (key : Text) : Except KindError Kind :=
  match key with
  | [c] =>
    match Operator.ofSymbol? c with
    | some o => .ok (.operator o)
    | none => .error (.unknownSymbol key)
  | _ => .error (.unknownSymbol key)

end DeskCalc
