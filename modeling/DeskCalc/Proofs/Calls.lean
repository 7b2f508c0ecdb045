import DeskCalc.Display.Edit
import DeskCalc.Proofs.Typing

/-! Calls on the display.  On a display that shows something, every call comes to what its function
says, or is refused and changes nothing; and the display shows something after it.  So it does after
any calls, whatever they were. -/

namespace DeskCalc

theorem Text.ofInt_digit {n : Int} (low : 0 ≤ n) (high : n ≤ 9) :
    Text.ofInt n = [Nat.digitChar n.toNat] := by
  obtain ⟨k, rfl⟩ := Int.eq_ofNat_of_zero_le low
  rw [Text.ofInt, if_neg (by omega), Text.ofNat]
  exact Nat.toDigits_of_lt_base (by omega)

/-- The value of a digit gives the digit back. -/
theorem digitChar_of_isDigit {c : Char} (h : c.isDigit) : Nat.digitChar (c.toNat - 48) = c := by
  have bounds := Decimal.toNat_of_isDigit h
  rw [← Char.toNat_inj, Nat.toNat_digitChar_of_lt_ten (by omega)]
  omega

theorem Command.isDigit_of_ofKey? {key : Text} {c : Char} (bound : ofKey? key = some (.digit c)) :
    c.isDigit := by
  unfold ofKey? at bound
  repeat' split at bound
  all_goals simp_all

theorem Command.symbol_of_ofKey? {key : Text} {c : Char} (bound : ofKey? key = some (.symbol c)) :
    c = '.' ∨ ∃ o : Operator, c = o.symbol := by
  have listed : (((c = '+' ∨ c = '-') ∨ c = '/') ∨ c = 'x') ∨ c = '.' := by
    unfold ofKey? at bound
    repeat' split at bound
    all_goals simp_all
    exact .inl (.inr bound.symm)
  rcases listed with (((rfl | rfl) | rfl) | rfl) | rfl
  · exact .inr ⟨.plus, rfl⟩
  · exact .inr ⟨.minus, rfl⟩
  · exact .inr ⟨.div, rfl⟩
  · exact .inr ⟨.times, rfl⟩
  · exact .inl rfl

namespace Edit

/-- How an edit ends that is carried through, or refused with nothing changed. -/
def ended (d : Display) : Except DisplayError Display → Except EditFault Unit × Display
  | .ok d' => (.ok (), d')
  | .error e => (.error (.refused e), d)

section Agreement

variable (d : Display)

theorem on_digit (h : d.text ≠ []) (n : Int) : (digit n).on d = ended d (d.addDigit n) := by
  unfold digit Display.addDigit
  by_cases outside : n < 0 ∨ 9 < n
  · have refused : ¬ (decide (0 ≤ n) && decide (n ≤ 9)) = true := by simp; omega
    rw [if_pos (by simpa using outside), if_neg refused]
    rfl
  obtain ⟨low, high⟩ : 0 ≤ n ∧ n ≤ 9 := by omega
  have taken : (decide (0 ≤ n) && decide (n ≤ 9)) = true := by simp [low, high]
  obtain ⟨c, hc⟩ := Option.isSome_iff_exists.1 (List.getLast?_isSome.2 h)
  have zero : Nat.digitChar n.toNat = '0' ↔ n = 0 := by
    rw [← Char.toNat_inj, Nat.toNat_digitChar_of_lt_ten (by omega), show '0'.toNat = 48 from rfl]
    omega
  rw [if_neg (by simpa using outside), if_pos taken, on_bind, on_last d hc]
  simp only [Text.ofInt_digit low high, Display.putDigit, hc]
  by_cases digit : c.isDigit
  · rw [if_pos digit, if_pos digit, on_dropZero_append]
    rfl
  rw [if_neg digit, if_neg digit]
  by_cases nonzero : n ≠ 0
  · have typed : Nat.digitChar n.toNat ≠ '0' := fun h => nonzero (zero.1 h)
    rw [if_pos nonzero, if_pos (by simp [typed])]
    rfl
  · -- A zero is typed after a point only.
    rw [if_neg nonzero, on_bind, on_last d hc]
    by_cases point : c = '.' <;> simp [point, zero.2 (by simpa using nonzero), ended]

theorem on_symbol (kind : Kind) : (symbol kind).on d = ended d (d.addOperator kind) := by
  cases kind with
  | operator o => exact on_dropZero_append d [o.symbol]
  | decimal => exact on_dropZero_append d ['.']
  | number => rfl
  | percent => rfl
  | negate => rfl

theorem on_backspace : backspace.on d = (.ok (), d.backspace) := by
  unfold backspace Display.backspace
  rw [on_bind, on_text]
  dsimp only
  split <;> rfl

theorem on_negate : negate.on d = (.ok (), d.negate) := by
  unfold negate Display.negate
  rw [on_bind, on_text]
  obtain ⟨t⟩ := d
  cases t with
  | nil => rfl
  | cons c rest =>
    by_cases zero : c = '0'
    · subst zero
      rfl
    by_cases minus : c = '-'
    · subst minus
      rfl
    · simp [zero, minus]

theorem on_percent : percent.on d = (.ok (), d.percent) := by
  unfold percent Display.percent
  rw [on_bind, on_text]
  dsimp only
  cases Decimal.read? d.text with
  | none => rfl
  | some v => rfl

theorem on_equals : equals.on d = (.ok d.outcome, d.equals) := by
  unfold equals Display.equals Display.outcome
  rw [on_bind, on_text]
  dsimp only
  rw [compute?_eq, on_bind]
  rcases compute_cases d.text with ⟨v, -, computed⟩ | ⟨p, -, computed⟩
  · rw [computed]
    rfl
  · rw [computed]
    rfl

theorem on_discard_equals : (discard equals : Edit Unit).on d = (.ok (), d.equals) := by
  change ((fun _ => ()) <$> equals).on d = _
  rw [on_map, on_equals]

theorem on_command (h : d.text ≠ []) {key : Text} {c : Command} (bound : Command.ofKey? key = some c) :
    (command c).on d = (.ok (), d.perform c) := by
  cases c with
  | digit c =>
    have bounds := Decimal.toNat_of_isDigit (Command.isDigit_of_ofKey? bound)
    have typed := digitChar_of_isDigit (Command.isDigit_of_ofKey? bound)
    rw [command, on_digit d h, show '0'.toNat = 48 from rfl, Display.addDigit, if_pos (by simp; omega),
      Int.toNat_natCast, typed]
    rfl
  | symbol c =>
    refine (on_symbol d _).trans ?_
    rcases Command.symbol_of_ofKey? bound with rfl | ⟨o, rfl⟩
    · rfl
    · rw [kindOf, Operator.ofSymbol?_symbol]
      rfl
  | percent => exact on_percent d
  | negate => exact on_negate d
  | equals => exact on_discard_equals d
  | clear => rfl
  | backspace => exact on_backspace d

theorem on_press (h : d.text ≠ []) (key : Text) : (press key).on d = ended d (d.press key) := by
  unfold press Display.press
  cases bound : Command.ofKey? key with
  | none => rfl
  | some c => exact on_command d h bound

end Agreement

end Edit

theorem Call.edit_on {d : Display} (h : d.text ≠ []) (c : Call) :
    c.edit.on d = Edit.ended d (d.call c) := by
  cases c with
  | addDigit n => exact Edit.on_digit d h n
  | addOperator kind => exact Edit.on_symbol d kind
  | clear => rfl
  | backspace => exact Edit.on_backspace d
  | negate => exact Edit.on_negate d
  | percent => exact Edit.on_percent d
  | equals => exact Edit.on_discard_equals d
  | press key => exact Edit.on_press d h key

/-! ### What is refused -/

def digitKeys : List Char := ['0', '1', '2', '3', '4', '5', '6', '7', '8', '9']

def functionKeys : List Char :=
  ['+', '-', '/', 'x', '*', '.', '%', '_', '=', '\n', '\r', 'c', 'C', '<', '\x08']

/-- The keys that do something, each of one character. -/
def boundKeys : List Text := (digitKeys ++ functionKeys).map fun c => [c]

theorem isDigit_iff_mem_digitKeys {c : Char} : c.isDigit ↔ c ∈ digitKeys := by
  constructor
  · intro digit
    have value := Decimal.toNat_of_isDigit digit
    have listed : ∀ k < 10, Nat.digitChar k ∈ digitKeys := by decide
    rw [← digitChar_of_isDigit digit]
    exact listed _ (by omega)
  · have digits : digitKeys.all Char.isDigit = true := by decide
    exact List.all_eq_true.1 digits c

theorem Command.ofKey?_eq_none_iff {key : Text} : ofKey? key = none ↔ key ∉ boundKeys := by
  match key with
  | [] => decide
  | c :: d :: rest => simp [ofKey?, boundKeys]
  | [c] =>
    have bound : [c] ∈ boundKeys ↔ c.isDigit ∨ c ∈ functionKeys := by
      rw [isDigit_iff_mem_digitKeys]
      simp [boundKeys]
    rw [bound]
    by_cases digit : c.isDigit
    · simp [ofKey?, digit]
    by_cases listed : c ∈ functionKeys
    · have taken : functionKeys.all (fun d => (ofKey? [d]).isSome) = true := by decide
      have bound := List.all_eq_true.1 taken c listed
      simp [listed, Option.isSome_iff_ne_none.1 bound]
    · have others := listed
      simp only [functionKeys, List.mem_cons, List.not_mem_nil, or_false, not_or] at others
      simp [ofKey?, digit, listed, others]

/-- A call whose argument the display does not take. -/
def Call.Refused : Call → Prop
  | addDigit n => n < 0 ∨ 9 < n
  | addOperator kind =>
    kind ∉ [.operator .minus, .operator .plus, .operator .div, .operator .times, .decimal]
  | press key => key ∉ boundKeys
  | _ => False

theorem Display.call_refused_iff {d : Display} {c : Call} : (∃ e, d.call c = .error e) ↔ c.Refused := by
  cases c with
  | addDigit n =>
    by_cases inside : 0 ≤ n ∧ n ≤ 9
    · simp [call, addDigit, Call.Refused, inside]
    · have outside : n < 0 ∨ 9 < n := by omega
      simp [call, addDigit, Call.Refused, inside, outside]
  | addOperator kind =>
    cases kind with
    | operator o => cases o <;> simp [call, addOperator, Call.Refused]
    | _ => simp [call, addOperator, Call.Refused]
  | press key =>
    rw [Call.Refused, ← Command.ofKey?_eq_none_iff, call, press]
    cases Command.ofKey? key <;> simp
  | _ => simp [call, Call.Refused]

/-- A call that evaluates the text. -/
def Call.Evaluates : Call → Prop
  | equals => True
  | press key => key = ['='] ∨ key = ['\n'] ∨ key = ['\r']
  | _ => False

/-- A call that takes the hundredth. -/
def Call.TakesPercent : Call → Prop
  | percent => True
  | press key => key = ['%']
  | _ => False

namespace Display

theorem call_evaluates {c : Call} (h : c.Evaluates) (d : Display) : d.call c = .ok d.equals := by
  cases c with
  | equals => rfl
  | press key => rcases h with rfl | rfl | rfl <;> rfl
  | _ => exact h.elim

/-- An evaluation that fails leaves the text as it was. -/
theorem equals_of_failed {d : Display} (failed : (compute d.text).ok = false) : d.equals = d := by
  unfold equals outcome
  cases fault : (compute d.text).error with
  | some message => simp only [fault]
  | none => simp [Outcome.ok, fault] at failed

theorem call_takesPercent {c : Call} (h : c.TakesPercent) (d : Display) :
    d.call c = .ok d.percent := by
  cases c with
  | percent => rfl
  | press key =>
    obtain rfl := h
    rfl
  | _ => exact h.elim

end Display

/-! ### The text is never empty -/

namespace Decimal

theorem positional_ne_nil (digits : Text) (e : Int) : positional digits e ≠ [] := by
  unfold positional
  dsimp only
  repeat' split
  all_goals simp

theorem exponential_ne_nil (width : Nat) (digits : Text) (e : Int) :
    exponential width digits e ≠ [] := by
  simp [exponential]

theorem Layout.magnitude_ne_nil (l : Layout) (a : Binary64.Magnitude) : l.magnitude a ≠ [] := by
  unfold magnitude decimal
  dsimp only
  repeat' split
  · simp
  · exact positional_ne_nil _ _
  · exact exponential_ne_nil _ _ _

theorem signed_ne_nil {t : Text} (h : t ≠ []) (negative : Bool) : signed negative t ≠ [] := by
  cases negative with
  | false => exact h
  | true => simp [signed]

theorem write_ne_nil (v : Float) : write v ≠ [] := by
  unfold write
  split
  · simp
  · exact signed_ne_nil (by simp) _
  · exact signed_ne_nil (layout.magnitude_ne_nil _) _

end Decimal

theorem Text.ofInt_ne_nil (n : Int) : Text.ofInt n ≠ [] := by
  unfold Text.ofInt Text.ofNat
  split <;> simp

theorem resultText_ne_nil (v : Float) : resultText v ≠ [] := by
  unfold resultText
  repeat' split
  · exact Text.ofInt_ne_nil _
  · exact Decimal.write_ne_nil v
  · exact Decimal.write_ne_nil v

namespace Display

theorem ofText_ne_nil (t : Text) : (ofText t).text ≠ [] := by
  cases t <;> simp [ofText, zeroText]

/-- What the calls on a display keep true of its text: it holds of the zero and of results, and goes on
holding when a character of the keypad is put at the end or one is taken away there, and when a minus
sign is put in front or taken away. -/
structure Lasting (P : Text → Prop) : Prop where
  zero : P zeroText
  result (v : Float) : P (resultText v)
  single {c : Char} (key : KeypadChar c) : P [c]
  concat {t : Text} {c : Char} (h : P t) (key : KeypadChar c) : P (t ++ [c])
  dropLast {t : Text} (h : P t) (long : 1 < t.length) : P t.dropLast
  minus {t : Text} (h : P t) : P ('-' :: t)
  unsigned {t : Text} (h : P ('-' :: t)) (nonempty : t ≠ []) : P t

namespace Lasting

variable {P : Text → Prop} (lasting : Lasting P) {d : Display}

include lasting

theorem stem_concat (h : P d.text) {c : Char} (key : KeypadChar c) : P (d.stem ++ [c]) := by
  unfold stem
  split
  · exact lasting.single key
  · exact lasting.concat h key

theorem putDigit (h : P d.text) {c : Char} (digit : c.isDigit) : P (d.putDigit c).text := by
  unfold Display.putDigit
  repeat' split
  · exact h
  · exact lasting.stem_concat h (.inl digit)
  · exact lasting.concat h (.inl digit)
  · exact h

theorem putSymbol (h : P d.text) {c : Char} (symbol : c = '.' ∨ ∃ o : Operator, c = o.symbol) :
    P (d.putSymbol c).text :=
  lasting.stem_concat h (.inr symbol)

theorem backspace (h : P d.text) : P d.backspace.text := by
  unfold Display.backspace
  split
  · exact lasting.zero
  · next long => exact lasting.dropLast h (Nat.lt_of_not_le long)

theorem negate (h : P d.text) : P d.negate.text := by
  unfold Display.negate
  split
  · exact h
  · next rest shown =>
    rw [shown] at h
    cases rest with
    | nil => exact lasting.zero
    | cons c rest =>
      show P (c :: rest)
      exact lasting.unsigned h (by simp)
  · exact lasting.minus h

theorem percent (h : P d.text) : P d.percent.text := by
  unfold Display.percent
  split
  · exact lasting.result _
  · exact h

theorem equals (h : P d.text) : P d.equals.text := by
  unfold Display.equals outcome
  rcases compute_cases d.text with ⟨v, -, computed⟩ | ⟨p, -, computed⟩
  · rw [computed]
    exact lasting.result v
  · rw [computed]
    exact h

theorem perform (h : P d.text) {key : Text} {c : Command} (bound : Command.ofKey? key = some c) :
    P (d.perform c).text := by
  cases c with
  | digit c => exact lasting.putDigit h (Command.isDigit_of_ofKey? bound)
  | symbol c => exact lasting.putSymbol h (Command.symbol_of_ofKey? bound)
  | percent => exact lasting.percent h
  | negate => exact lasting.negate h
  | equals => exact lasting.equals h
  | clear => exact lasting.zero
  | backspace => exact lasting.backspace h

/-- A call that is carried through keeps it true. -/
theorem call (h : P d.text) {c : Call} {d' : Display} (called : d.call c = .ok d') : P d'.text := by
  have kept {e : Display} (he : P e.text) (called : .ok e = Except.ok (ε := DisplayError) d') :
      P d'.text := by
    obtain rfl := Except.ok.inj called
    exact he
  cases c with
  | addDigit n =>
    simp only [Display.call, addDigit] at called
    split at called
    · next inside =>
      simp only [Bool.and_eq_true, decide_eq_true_eq] at inside
      have digit : (Nat.digitChar n.toNat).isDigit := by
        rw [Nat.isDigit_digitChar, decide_eq_true_eq]
        omega
      exact kept (lasting.putDigit h digit) called
    · cases called
  | addOperator kind =>
    simp only [Display.call, addOperator] at called
    split at called
    · next o => exact kept (lasting.putSymbol h (.inr ⟨o, rfl⟩)) called
    · exact kept (lasting.putSymbol h (.inl rfl)) called
    · cases called
  | clear => exact kept lasting.zero called
  | backspace => exact kept (lasting.backspace h) called
  | negate => exact kept (lasting.negate h) called
  | percent => exact kept (lasting.percent h) called
  | equals => exact kept (lasting.equals h) called
  | press key =>
    simp only [Display.call, press] at called
    split at called
    · next bound => exact kept (lasting.perform h bound) called
    · cases called

end Lasting

theorem lasting_ne_nil : Lasting (· ≠ []) where
  zero := by decide
  result := resultText_ne_nil
  single _ := by simp
  concat _ _ := by simp
  dropLast _ long := by
    intro empty
    have short := congrArg List.length empty
    rw [List.length_dropLast, List.length_nil] at short
    omega
  minus _ := by simp
  unsigned _ nonempty := nonempty

/-- The display that a call leaves shows something. -/
theorem call_ne_nil {d d' : Display} (h : d.text ≠ []) {c : Call} (called : d.call c = .ok d') :
    d'.text ≠ [] := lasting_ne_nil.call h called

/-- One step of a run of calls: what shows something goes on showing something. -/
theorem edit_ne_nil {d : Display} (h : d.text ≠ []) (c : Call) : (c.edit.on d).2.text ≠ [] := by
  rw [c.edit_on h]
  cases called : d.call c with
  | ok d' => exact call_ne_nil h called
  | error e => exact h

theorem after_ne_nil {d : Display} (h : d.text ≠ []) (calls : List Call) :
    (d.after calls).text ≠ [] := by
  induction calls generalizing d with
  | nil => exact h
  | cons c rest ih => exact ih (edit_ne_nil h c)

/-- Whatever text a display is given and whatever calls it has had, it shows something, and goes on
showing something after the next call.  That call is refused exactly when its argument is not one to
take, and nothing else breaks it off.  A call that is refused, an evaluation that fails and a percent
of what is no number leave the text as it was. -/
theorem calls_keep_the_text (t : Text) (calls : List Call) (c : Call) :
    let d := (ofText t).after calls
    (ofText t).text = (if t = [] then ['0'] else t) ∧ d.text ≠ [] ∧
      ∃ ending d', c.edit.on d = (ending, d') ∧ d'.text ≠ [] ∧
        (ending, d') = Edit.ended d (d.call c) ∧
        (∀ fault, ending = .error fault → (∃ e, fault = .refused e) ∧ d' = d) ∧
        ((∃ fault, ending = .error fault) ↔ c.Refused) ∧
        (c.Evaluates → (compute d.text).ok = false → d' = d) ∧
        (c.TakesPercent → Decimal.read? d.text = none → d' = d) := by
  intro d
  have shown : d.text ≠ [] := after_ne_nil (ofText_ne_nil t) calls
  refine ⟨by cases t <;> rfl, shown, (c.edit.on d).1, (c.edit.on d).2, rfl, edit_ne_nil shown c,
    c.edit_on shown, ?_⟩
  rw [c.edit_on shown]
  refine ⟨?_, ?_, ?_, ?_⟩
  · intro fault
    cases d.call c with
    | ok d' => simp [Edit.ended]
    | error e =>
      rintro ⟨⟩
      exact ⟨⟨e, rfl⟩, rfl⟩
  · rw [← call_refused_iff (d := d)]
    cases d.call c <;> simp [Edit.ended]
  · intro evaluates failed
    rw [call_evaluates evaluates, equals_of_failed failed]
    rfl
  · intro percent noNumber
    rw [call_takesPercent percent]
    simp [Edit.ended, Display.percent, noNumber]

end Display

end DeskCalc
