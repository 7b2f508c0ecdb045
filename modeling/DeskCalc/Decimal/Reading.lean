import DeskCalc.Decimal.Basic
import DeskCalc.Text.Characters

/-! Reading a number from a text: blanks around it, a sign, digits of any script with single
underscores between them, a decimal point, an exponent, or a word for infinity or for no number. -/

namespace DeskCalc.Decimal

open Binary64

/-- The ASCII characters that may stand around a number. -/
def isPadding (c : Char) : Bool := c = ' ' || (9 ≤ c.toNat && c.toNat ≤ 13)

/-- A character as its ASCII equal: itself, a space for a blank, a digit for a digit.  Any other
character is none. -/
def toAscii? (c : Char) : Option Char :=
  if c.toNat < 128 then some c
  else if Text.isBlank c then some ' '
  else (Text.digitValue? c).map Nat.digitChar

/-- The text without its underscores, each of which has a digit on both sides; `previous` is the
character before the text. -/
def dropUnderscores (previous : Char) : Text → Option Text
  | [] => if previous = '_' then none else some []
  | c :: rest =>
    if c = '_' then
      if previous.isDigit then dropUnderscores c rest else none
    else if previous = '_' && !c.isDigit then none
    else (dropUnderscores c rest).map (c :: ·)

/-- A sign, plus if there is none, and what follows it. -/
def splitSign : Text → Bool × Text
  | '-' :: rest => (true, rest)
  | '+' :: rest => (false, rest)
  | t => (false, t)

/-- An exponent, zero if there is none; nothing may follow it. -/
def readExponent : Text → Option Int
  | [] => some 0
  | c :: rest =>
    if c = 'e' || c = 'E' then
      let (negative, digits) := splitSign rest
      if digits.isEmpty || !digits.all Char.isDigit then none
      else
        let n : Int := Nat.ofDigitChars 10 digits 0
        some (if negative then -n else n)
    else none

/-- A point and the digits after it, if there is a point, and what follows. -/
def splitFraction : Text → Text × Text
  | '.' :: rest => (rest.takeWhile Char.isDigit, rest.dropWhile Char.isDigit)
  | t => ([], t)

/-- A decimal number without a sign: digits, of which there is one at least before or after the
point, and an exponent. -/
def readUnsigned (t : Text) : Option Decimal :=
  let whole := t.takeWhile Char.isDigit
  let (fraction, rest) := splitFraction (t.dropWhile Char.isDigit)
  let digits := whole ++ fraction
  if digits.isEmpty then none
  else (readExponent rest).map fun exponent =>
    ⟨Nat.ofDigitChars 10 digits 0, exponent - fraction.length⟩

/-- A number in ASCII without padding or underscores. -/
def readAscii (t : Text) : Option Float :=
  let (negative, rest) := splitSign t
  let word := rest.map Char.toLower
  if word = "inf".toList || word = "infinity".toList then some (infinity negative)
  else if word = "nan".toList then some nan
  else (readUnsigned rest).map (toFloat negative)

/-- The number that a text spells. -/
def read? (t : Text) : Option Float := do
  let ascii ← t.mapM toAscii?
  let plain ← dropUnderscores ' ' (Text.dropEnd isPadding (ascii.dropWhile isPadding))
  readAscii plain

end DeskCalc.Decimal
