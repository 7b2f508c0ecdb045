import DeskCalc.Display

/-! Editing the display step by step.  An edit reads the text and puts other texts in its place, and
where it breaks off, what it has put so far stays.  On a display that shows something an edit comes to
what the function of the display for it says: it is carried through, or refused with nothing changed. -/

namespace DeskCalc

/-- What breaks an edit off. -/
inductive EditFault where
  | refused (e : DisplayError)
  /-- The last character of an empty text was asked for. -/
  | noCharacter
  | evaluation (e : CalcError)
  | noResult (e : NoResult)

/-- The display outlives a fault. -/
abbrev Edit := ExceptT EditFault (StateM Display)

namespace Edit

/-- How an edit of a display ends, and the display that it leaves. -/
def on {α : Type} (m : Edit α) (d : Display) : Except EditFault α × Display := m.run.run d

def text : Edit Text := do return (← get).text

def put (t : Text) : Edit Unit := set (Display.mk t)

def append (t : Text) : Edit Unit := do put ((← text) ++ t)

def last : Edit Char := do
  match (← text).getLast? with
  | some c => return c
  | none => throw .noCharacter

/-- The zero of an empty display makes room for what is typed. -/
def dropZero : Edit Unit := do
  if (← text) = Display.zeroText then put []

def digit (n : Int) : Edit Unit :=
  if n < 0 || 9 < n then throw (.refused (.notDigit n))
  else do
    if (← last).isDigit then
      dropZero
      append (Text.ofInt n)
    else if n ≠ 0 then append (Text.ofInt n)
    else if (← last) = '.' then append (Text.ofInt n)

/-- The character that a kind appends, if it can be appended. -/
def appended? : Kind → Option Char
  | .operator o => some o.symbol
  | .decimal => some '.'
  | _ => none

def symbol (kind : Kind) : Edit Unit :=
  match appended? kind with
  | some c => do
    dropZero
    append [c]
  | none => throw (.refused (.notAppendable kind))

def clear : Edit Unit := put Display.zeroText

def backspace : Edit Unit := do
  if (← text).length ≤ 1 then clear else put (← text).dropLast

def negate : Edit Unit := do
  match (← text) with
  | '0' :: _ => return
  | '-' :: rest => put (if rest.isEmpty then Display.zeroText else rest)
  | t => put ('-' :: t)

def percent : Edit Unit := do
  match Decimal.read? (← text) with
  | some v => put (resultText (v / 100))
  | none => return

/-- A value that must be there. -/
def require {ε α : Type} (fault : ε → EditFault) : Except ε α → Edit α
  | .ok a => return a
  | .error e => throw (fault e)

/-- Gives the outcome whether the text is replaced or not. -/
def equals : Edit Outcome := do
  let o ← require .evaluation (compute? (← text))
  if o.ok then put (← require .noResult (resultText? o.result))
  return o

/-- The kind that a symbol key types. -/
def kindOf (c : Char) : Kind := (Operator.ofSymbol? c).elim .decimal .operator

def command : Command → Edit Unit
  | .digit c => digit (c.toNat - '0'.toNat : Nat)
  | .symbol c => symbol (kindOf c)
  | .percent => percent
  | .negate => negate
  | .equals => discard equals
  | .clear => clear
  | .backspace => backspace

def press (key : Text) : Edit Unit :=
  match Command.ofKey? key with
  | some c => command c
  | none => throw (.refused (.unbound key))

/-! ### Running an edit -/

section Running

variable {α β : Type} (d : Display)

theorem on_bind (m : Edit α) (f : α → Edit β) : (m >>= f).on d = match m.on d with
    | (.ok a, d') => (f a).on d'
    | (.error e, d') => (.error e, d') := by
  unfold on ExceptT.run StateT.run
  simp only [bind, ExceptT.bind, ExceptT.mk, StateT.bind, ExceptT.bindCont]
  cases m d with
  | mk ending d' => cases ending <;> rfl

theorem on_map (f : α → β) (m : Edit α) : (f <$> m).on d = match m.on d with
    | (.ok a, d') => (.ok (f a), d')
    | (.error e, d') => (.error e, d') := by
  unfold on ExceptT.run StateT.run
  simp only [Functor.map, ExceptT.map, ExceptT.mk, bind, StateT.bind]
  cases m d with
  | mk ending d' => cases ending <;> rfl

@[simp] theorem on_pure (a : α) : (pure a : Edit α).on d = (.ok a, d) := rfl

@[simp] theorem on_text : text.on d = (.ok d.text, d) := rfl

@[simp] theorem on_put (t : Text) : (put t).on d = (.ok (), ⟨t⟩) := rfl

@[simp] theorem on_append (t : Text) : (append t).on d = (.ok (), ⟨d.text ++ t⟩) := rfl

@[simp] theorem on_dropZero : dropZero.on d = (.ok (), ⟨d.stem⟩) := by
  unfold dropZero
  rw [on_bind, on_text, Display.stem]
  simp only
  split <;> rfl

theorem on_last {c : Char} (h : d.text.getLast? = some c) : last.on d = (.ok c, d) := by
  unfold last
  rw [on_bind, on_text]
  simp only [h, on_pure]

/-- What is typed takes the place of the zero of an empty display. -/
theorem on_dropZero_append (t : Text) :
    (do dropZero; append t : Edit Unit).on d = (.ok (), ⟨d.stem ++ t⟩) := by
  rw [on_bind, on_dropZero]
  exact on_append _ t

end Running

end Edit

/-- A call on the display. -/
inductive Call where
  | addDigit (n : Int)
  | addOperator (kind : Kind)
  | clear
  | backspace
  | negate
  | percent
  | equals
  | press (key : Text)
  deriving DecidableEq

def Call.edit : Call → Edit Unit
  | addDigit n => Edit.digit n
  | addOperator kind => Edit.symbol kind
  | clear => Edit.clear
  | backspace => Edit.backspace
  | negate => Edit.negate
  | percent => Edit.percent
  | equals => discard Edit.equals
  | press key => Edit.press key

/-- What the function of the display for a call gives. -/
def Display.call (d : Display) : Call → Except DisplayError Display
  | .addDigit n => d.addDigit n
  | .addOperator kind => d.addOperator kind
  | .clear => .ok d.clear
  | .backspace => .ok d.backspace
  | .negate => .ok d.negate
  | .percent => .ok d.percent
  | .equals => .ok d.equals
  | .press key => d.press key

/-- The display after calls, each made on what the one before it left, whether that was carried through
or not. -/
def Display.after (d : Display) (calls : List Call) : Display :=
  calls.foldl (fun d c => (c.edit.on d).2) d

end DeskCalc
