import DeskCalc.Outcome

/-! The display of the calculator: a text that keys edit.  A display that shows nothing reads `0`, and
the first digit or operator replaces that zero.  Digits and operators are appended, the equals key
replaces the text by its result, and percent and negation change the text itself. -/

namespace DeskCalc

/-- What the display shows. -/
structure Display where
  text : Text
  deriving DecidableEq

/-- Why the display refused an input. -/
inductive DisplayError where
  | notDigit (n : Int)
  | notAppendable (kind : Kind)
  | unbound (key : Text)

def DisplayError.message : DisplayError → Text
  | notDigit n => "Not a digit: ".toList ++ Text.ofInt n
  | notAppendable kind => kind.name ++ " cannot be appended to the display".toList
  | unbound key => "Unbound key: ".toList ++ Text.quoted key

/-- What a bound key does. -/
inductive Command where
  | digit (c : Char)
  | symbol (c : Char)
  | percent
  | negate
  | equals
  | clear
  | backspace
  deriving DecidableEq

/-- The command that a key is bound to; a key is one character. -/
def Command.ofKey? : Text → Option Command
  | [c] =>
    if c.isDigit then some (digit c)
    else if c = '+' || c = '-' || c = '/' || c = 'x' || c = '.' then some (symbol c)
    else if c = '*' then some (symbol 'x')
    else if c = '%' then some percent
    else if c = '_' then some negate
    else if c = '=' || c = '\n' || c = '\r' then some equals
    else if c = 'c' || c = 'C' then some clear
    else if c = '<' || c = '\x08' then some backspace
    else none
  | _ => none

namespace Display

def zeroText : Text := ['0']

def zero : Display := ⟨zeroText⟩

/-- A display with the given text; an empty text shows as zero. -/
def ofText (t : Text) : Display := ⟨if t.isEmpty then zeroText else t⟩

/-- The text that a digit after a digit or a symbol is appended to: none when the display shows only
its zero. -/
def stem (d : Display) : Text := if d.text = zeroText then [] else d.text

/-- A digit typed.  A zero that would begin a literal is ignored. -/
def putDigit (d : Display) (c : Char) : Display :=
  match d.text.getLast? with
  | none => d
  | some last =>
    if last.isDigit then ⟨d.stem ++ [c]⟩
    else if c ≠ '0' || last = '.' then ⟨d.text ++ [c]⟩
    else d

/-- An operator or the decimal point typed. -/
def putSymbol (d : Display) (c : Char) : Display := ⟨d.stem ++ [c]⟩

def clear (_ : Display) : Display := zero

/-- Deletes the last character; a display of one character is cleared. -/
def backspace (d : Display) : Display :=
  if d.text.length ≤ 1 then d.clear else ⟨d.text.dropLast⟩

/-- Takes away or puts a minus sign in front; a text that starts with zero is left as it is. -/
def negate (d : Display) : Display :=
  match d.text with
  | '0' :: _ => d
  | '-' :: rest => ofText rest
  | t => ⟨'-' :: t⟩

/-- The hundredth of the number on the display; any other text is left as it is. -/
def percent (d : Display) : Display :=
  match Decimal.read? d.text with
  | some v => ⟨resultText (v / 100)⟩
  | none => d

/-- The outcome of evaluating the text. -/
def outcome (d : Display) : Outcome := compute d.text

/-- The result in place of the text; an error leaves the text as it is. -/
def equals (d : Display) : Display :=
  let o := d.outcome
  match o.error with
  | some _ => d
  | none => ⟨o.result.elim [] resultText⟩

def perform (d : Display) : Command → Display
  | .digit c => d.putDigit c
  | .symbol c => d.putSymbol c
  | .percent => d.percent
  | .negate => d.negate
  | .equals => d.equals
  | .clear => d.clear
  | .backspace => d.backspace

/-- A digit by its value. -/
def addDigit (d : Display) (n : Int) : Except DisplayError Display :=
  if 0 ≤ n && n ≤ 9 then .ok (d.putDigit (Nat.digitChar n.toNat)) else .error (.notDigit n)

/-- A symbol by its kind: an operator or the decimal point. -/
def addOperator (d : Display) (kind : Kind) : Except DisplayError Display :=
  match kind with
  | .operator o => .ok (d.putSymbol o.symbol)
  | .decimal => .ok (d.putSymbol '.')
  | kind => .error (.notAppendable kind)

def press (d : Display) (key : Text) : Except DisplayError Display :=
  match Command.ofKey? key with
  | some command => .ok (d.perform command)
  | none => .error (.unbound key)

/-- The records of a percent: a warning when the text is no number. -/
def percentRecords (d : Display) : List Record :=
  match Decimal.read? d.text with
  | some _ => []
  | none =>
    [⟨.warning, "📟 Percent ignored, display is not a number: ".toList ++ Text.quoted d.text⟩]

def commandRecords (d : Display) : Command → List Record
  | .percent => d.percentRecords
  | .equals => computeRecords d.text
  | _ => []

def pressRecords (d : Display) (key : Text) : List Record :=
  match Command.ofKey? key with
  | some command => d.commandRecords command
  | none => []

end Display

end DeskCalc
