import DeskCalc.Display

/-! Fields filled from outside: what may be offered for a field, and the records that are made of
fields. -/

namespace DeskCalc

inductive Offered where
  | missing
  | null
  | text (t : Text)
  | number (x : Float)
  | integer (n : Int)
  | other

inductive FieldFault where
  | required
  | notText
  | notNumber
  | frozen

structure FieldError where
  field : Text
  fault : FieldFault

namespace FieldError

def message (e : FieldError) : Text :=
  e.field ++ [':', ' '] ++ match e.fault with
    | .required => "Field required".toList
    | .notText => "Input should be a valid string".toList
    | .notNumber => "Input should be a valid number".toList
    | .frozen => "Instance is frozen".toList

/-- The messages of several fields, in order. -/
def messages (es : List FieldError) : Text := Text.join [';', ' '] (es.map message)

end FieldError

namespace Offered

/-- A text that must be given. -/
def asText (field : Text) : Offered → Except FieldError Text
  | text t => .ok t
  | missing => .error ⟨field, .required⟩
  | _ => .error ⟨field, .notText⟩

/-- A text with a default, used when nothing is offered. -/
def asTextOr (field default : Text) : Offered → Except FieldError Text
  | missing => .ok default
  | offered => offered.asText field

/-- A text that may be left out. -/
def asText? (field : Text) : Offered → Except FieldError (Option Text)
  | missing | null => .ok none
  | text t => .ok (some t)
  | _ => .error ⟨field, .notText⟩

/-- A number that may be left out.  An integer stands for the number nearest to it, unless that is
infinite. -/
def asNumber? (field : Text) : Offered → Except FieldError (Option Float)
  | missing | null => .ok none
  | number x => .ok (some x)
  | integer n =>
    let bits := Binary64.nearestBits n.natAbs 1
    if bits < Binary64.infinityBits then .ok (some (Binary64.ofSignBits (n < 0) bits))
    else .error ⟨field, .notNumber⟩
  | _ => .error ⟨field, .notNumber⟩

def fault? {α : Type} : Except FieldError α → List FieldError
  | .ok _ => []
  | .error e => [e]

end Offered

/-- The expression of a request to evaluate one. -/
def requestedExpression (expression : Offered) : Except FieldError Text :=
  expression.asText "expression".toList

/-- An outcome from its fields, or every field that does not fit. -/
def Outcome.ofFields (expression result error : Offered) : Except (List FieldError) Outcome :=
  match expression.asText "expression".toList, result.asNumber? "result".toList,
    error.asText? "error".toList with
  | .ok e, .ok r, .ok m => .ok ⟨e, r, m⟩
  | e, r, m => .error (Offered.fault? e ++ Offered.fault? r ++ Offered.fault? m)

/-- A display from its text field; the text is zero when none is offered. -/
def Display.ofField (text : Offered) : Except FieldError Display :=
  Display.ofText <$> text.asTextOr "text".toList Display.zeroText

end DeskCalc
