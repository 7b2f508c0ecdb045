import DeskCalc.Kind

/-! Tokens of an expression: raw literals and the operators between them.  The scanner reads an
expression once from left to right.  A minus sign that finds no literal begun is the sign of a
literal, and any other is an operator. -/

namespace DeskCalc

inductive Token where
  | literal (text : Text)
  | operator (o : Operator)
  deriving DecidableEq

/-- The characters of a token. -/
def Token.text : Token → Text
  | literal t => t
  | operator o => [o.symbol]

/-- Why an expression has no tree.  Positions count characters from zero, and `source` is the text
that was scanned. -/
inductive ParseError where
  | emptyExpression
  | unsupported (c : Char) (position : Nat) (source : Text)
  | missingOperand (c : Char) (position : Nat) (source : Text)
  | missingFinalOperand (source : Text)
  | malformedNumber (literal : Text)
  deriving DecidableEq

namespace ParseError

private def located (what : Text) (c : Char) (position : Nat) (source : Text) : Text :=
  what ++ Text.quoted [c] ++ " at position ".toList ++ Text.ofNat position ++ ": ".toList
    ++ Text.quoted source

def message : ParseError → Text
  | emptyExpression => "Empty expression".toList
  | unsupported c position source => located "Unsupported character ".toList c position source
  | missingOperand c position source => located "Missing operand before ".toList c position source
  | missingFinalOperand source => "Missing final operand: ".toList ++ Text.quoted source
  | malformedNumber literal => "Malformed number: ".toList ++ Text.quoted literal

end ParseError

/-- Whether `c` goes on with a literal of which `begun` is there: a digit or a point always does, a
minus sign only at its start. -/
def continuesLiteral (begun : Text) (c : Char) : Bool :=
  c.isDigit || c == '.' || (begun.isEmpty && c == '-')

/-- Scans what is left of `source` from `position` on; `begun` holds the characters of the open
literal, the last one first. -/
def scan (source : Text) : Nat → Text → Text → Except ParseError (List Token)
  | _, begun, [] =>
    if begun.isEmpty then .error (.missingFinalOperand source) else .ok [.literal begun.reverse]
  | position, begun, c :: rest =>
    if continuesLiteral begun c then scan source (position + 1) (c :: begun) rest
    else match Operator.ofSymbol? c with
      | none => .error (.unsupported c position source)
      | some o =>
        if begun.isEmpty then .error (.missingOperand c position source)
        else match scan source (position + 1) [] rest with
          | .ok tokens => .ok (.literal begun.reverse :: .operator o :: tokens)
          | .error e => .error e

/-- The tokens of an expression: literals and operators in turn, a literal first and last. -/
def tokenize (source : Text) : Except ParseError (List Token) := scan source 0 [] source

end DeskCalc
