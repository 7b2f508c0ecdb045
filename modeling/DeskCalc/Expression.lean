import DeskCalc.Decimal.Reading
import DeskCalc.Token
import DeskCalc.Tree.Arena
import DeskCalc.Tree.Evaluate

/-! Expressions as the display holds them: literals with operators between them.  A last character
that is no digit still waits for its operand and is dropped.  What is left is cut into tokens, and the
tokens are placed in an arena that becomes their tree. -/

namespace DeskCalc

/-- Why an expression has no tree: it is wrong itself, or putting the tree together broke down. -/
inductive BuildError where
  | parse (e : ParseError)
  /-- A token that should be an operator is none. -/
  | symbol (e : KindError)
  | arena (fault : ArenaFault)
  deriving DecidableEq

def BuildError.message : BuildError → Text
  | parse e => e.message
  | symbol e => e.message
  | arena fault => fault.message

namespace Expression

/-- An expression without a pending last character, which is any but a digit. -/
def stripPending (e : Text) : Text :=
  match e.getLast? with
  | some c => if c.isDigit then e else e.dropLast
  | none => e

def parseLiteral (t : Text) : Except ParseError Float :=
  match Decimal.read? t with
  | some v => .ok v
  | none => .error (.malformedNumber t)

/-- The kind and the value of the node of a token.  Tokens with an even number are read as literals, the
others are looked up among the operators. -/
def nodeOf (number : Nat) (token : Token) : Except BuildError (Kind × Option Float) :=
  if number % 2 = 0 then
    match parseLiteral token.text with
    | .ok v => .ok (.number, some v)
    | .error e => .error (.parse e)
  else
    match Kind.ofSymbol token.text with
    | .ok kind => .ok (kind, none)
    | .error e => .error (.symbol e)

/-- Places the nodes of tokens in an arena; the first token has the given number. -/
def placeTokens : Nat → Arena → List Token → Except BuildError Arena
  | _, a, [] => .ok a
  | number, a, token :: rest =>
    match nodeOf number token with
    | .error e => .error e
    | .ok (kind, value) =>
      match a.place kind value with
      | .error fault => .error (.arena fault)
      | .ok a' => placeTokens (number + 1) a' rest

def build (e : Text) : Except BuildError Tree :=
  if e.isEmpty then .error (.parse .emptyExpression)
  else
    match tokenize (stripPending e) with
    | .error err => .error (.parse err)
    | .ok tokens =>
      match placeTokens 0 .empty tokens with
      | .error err => .error err
      | .ok a =>
        match a.freeze with
        | .ok t => .ok t
        | .error fault => .error (.arena fault)

end Expression

/-- Why an expression has no value. -/
inductive CalcError where
  | build (e : BuildError)
  | eval (e : EvalError)
  deriving DecidableEq

namespace CalcError

def message : CalcError → Text
  | build e => e.message
  | eval e => e.message

/-- Whether the expression itself is wrong, which an outcome reports. -/
def isReported : CalcError → Bool
  | build (.parse _) => true
  | eval (.missingOperand _) => true
  | _ => false

end CalcError

def calculate (e : Text) : Except CalcError Float :=
  match Expression.build e with
  | .error err => .error (.build err)
  | .ok t =>
    match t.evaluate with
    | .error err => .error (.eval err)
    | .ok v => .ok v

end DeskCalc
