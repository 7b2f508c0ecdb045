import DeskCalc.Decimal.Basic
import DeskCalc.Text.Basic

/-! The text of a number: the digits of its shortest decimal, written positionally or with an
exponent. -/

namespace DeskCalc.Decimal

open Binary64

/-- How numbers are laid out: the exponents of the leading digit that are written positionally, and
the least number of digits of a written exponent. -/
structure Layout where
  least : Int
  greatest : Int
  exponentDigits : Nat

/-- Numbers from `0.0001` up to `1e16` are positional, and a written exponent has two digits or
more. -/
def layout : Layout := ⟨-4, 15, 2⟩

/-- `0` in front of a numeral up to the given length. -/
def padLeft (width : Nat) (t : Text) : Text := List.replicate (width - t.length) '0' ++ t

/-- Positional digits, the leading one standing for `10 ^ exponent`.  There is a digit on both sides
of the point. -/
def positional (digits : Text) (exponent : Int) : Text :=
  if exponent < 0 then
    '0' :: '.' :: List.replicate (-exponent - 1).toNat '0' ++ digits
  else
    let whole := exponent.toNat + 1
    if digits.length ≤ whole then
      digits ++ List.replicate (whole - digits.length) '0' ++ ['.', '0']
    else digits.take whole ++ '.' :: digits.drop whole

/-- Digits with an exponent: a point after the first digit if others follow, and a signed
exponent. -/
def exponential (width : Nat) (digits : Text) (exponent : Int) : Text :=
  let mantissa := match digits with
    | [] => []
    | [d] => [d]
    | d :: rest => d :: '.' :: rest
  mantissa ++ 'e' :: (if exponent < 0 then '-' else '+')
    :: padLeft width (Text.ofNat exponent.natAbs)

/-- The digits of a decimal without the zeros at their end. -/
def significantDigits (d : Decimal) : Text := Text.dropEnd (· = '0') (Text.ofNat d.coefficient)

def leadingExponent (d : Decimal) : Int := d.exponent + (Text.ofNat d.coefficient).length - 1

/-- A positive decimal as a text. -/
def Layout.decimal (l : Layout) (d : Decimal) : Text :=
  let exponent := leadingExponent d
  if l.least ≤ exponent && exponent ≤ l.greatest then positional (significantDigits d) exponent
  else exponential l.exponentDigits (significantDigits d) exponent

/-- A magnitude as a text. -/
def Layout.magnitude (l : Layout) (a : Magnitude) : Text :=
  if a.mantissa = 0 then ['0', '.', '0'] else l.decimal (shortest a)

/-- A sign in front of a text: a minus or nothing. -/
def signed (negative : Bool) (t : Text) : Text := if negative then '-' :: t else t

/-- The text of a number.  Reading it gives the number back. -/
def write (x : Float) : Text :=
  match decode x with
  | .nan => "nan".toList
  | .infinite negative => signed negative "inf".toList
  | .finite negative a => signed negative (layout.magnitude a)

end DeskCalc.Decimal
