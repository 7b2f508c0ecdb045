import DeskCalc.Proofs.Calls
import Mathlib.Logic.Function.Iterate

/-! Taking back what was typed.  A digit or a symbol that changes the display is put after its text or
takes the place of its zero.  In the first case a backspace cuts it off again, and in the second it is
all that is shown, so that a backspace clears the display and the zero is back.  As many backspaces as
there were changes bring back the text that was typed on. -/

namespace DeskCalc

/-- The key of a digit, of an operator or of the point; the asterisk is a second key of
multiplication. -/
def TypingKey (c : Char) : Prop := KeypadChar c ∨ c = '*'

instance (c : Char) : Decidable (TypingKey c) := inferInstanceAs (Decidable (_ ∨ _))

def BackspaceKey (c : Char) : Prop := c = '<' ∨ c = '\x08'

instance (c : Char) : Decidable (BackspaceKey c) := inferInstanceAs (Decidable (_ ∨ _))

namespace Display

/-- How many of the keys, pressed one by one, change the text. -/
def changes : Display → Text → Nat
  | _, [] => 0
  | d, c :: rest =>
    match d.press [c] with
    | .ok d' => (if d'.text = d.text then 0 else 1) + changes d' rest
    | .error _ => 0

/-! ### One key -/

theorem backspace_stem_concat {d : Display} (shown : d.text ≠ []) (c : Char) :
    (Display.mk (d.stem ++ [c])).backspace = d := by
  unfold backspace stem
  split
  · next zero =>
    obtain ⟨t⟩ := d
    obtain rfl : t = zeroText := zero
    rfl
  · next text =>
    have long : ¬ (d.text ++ [c]).length ≤ 1 := by
      have := List.length_pos_iff.2 shown
      rw [List.length_append, List.length_singleton]
      omega
    rw [if_neg long, List.dropLast_concat]

/-- A digit is ignored or stands at the end of the text. -/
theorem putDigit_cases {d : Display} (shown : d.text ≠ []) (c : Char) :
    d.putDigit c = d ∨ d.putDigit c = ⟨d.stem ++ [c]⟩ := by
  obtain ⟨last, ends⟩ := Option.isSome_iff_exists.1 (List.getLast?_isSome.2 shown)
  unfold putDigit
  simp only [ends]
  by_cases digit : last.isDigit
  · right
    rw [if_pos digit]
  · -- The zero of an empty display is a digit, so the text is not that zero.
    have stem_eq : d.stem = d.text := by
      refine if_neg fun zero => digit ?_
      rw [zero] at ends
      obtain rfl := Option.some.inj ends
      decide
    rw [if_neg digit, stem_eq]
    split
    · exact .inr rfl
    · exact .inl rfl

/-- A typing key is never refused, and what it changes a backspace takes back. -/
theorem press_typing {d : Display} (shown : d.text ≠ []) {c : Char} (key : TypingKey c) :
    ∃ d', d.press [c] = .ok d' ∧ d'.text ≠ [] ∧ (d' = d ∨ d'.backspace = d) := by
  have symbol (s : Char) (bound : Command.ofKey? [c] = some (.symbol s)) :
      ∃ d', d.press [c] = .ok d' ∧ d'.text ≠ [] ∧ (d' = d ∨ d'.backspace = d) := by
    refine ⟨d.putSymbol s, ?_, by simp [putSymbol], .inr (backspace_stem_concat shown s)⟩
    rw [press, bound]
    rfl
  rcases key with (digit | rfl | ⟨o, rfl⟩) | rfl
  · have bound : Command.ofKey? [c] = some (.digit c) := if_pos digit
    have pressed : d.press [c] = .ok (d.putDigit c) := by
      rw [press, bound]
      rfl
    refine ⟨d.putDigit c, pressed, ?_, ?_⟩
    · exact lasting_ne_nil.putDigit shown digit
    · rcases putDigit_cases shown c with ignored | appended
      · exact .inl ignored
      · rw [appended]
        exact .inr (backspace_stem_concat shown c)
  · exact symbol '.' (by decide)
  · exact symbol o.symbol (by cases o <;> decide)
  · exact symbol 'x' (by decide)

theorem press_backspace {c : Char} (key : BackspaceKey c) (d : Display) :
    d.press [c] = .ok d.backspace := by
  rcases key with rfl | rfl <;> rfl

/-! ### Rows of keys -/

theorem pressAll_backspaces {back : Text} (keys : ∀ c ∈ back, BackspaceKey c) (d : Display) :
    d.pressAll back = .ok (backspace^[back.length] d) := by
  induction back generalizing d with
  | nil => rfl
  | cons c back ih =>
    rw [pressAll, press_backspace (keys c (by simp)), List.length_cons, Function.iterate_succ_apply]
    exact ih (fun b hb => keys b (by simp [hb])) d.backspace

/-- The last change is taken back first, so the backspaces after the first key's change have brought
back what that key left. -/
theorem pressAll_typing {d : Display} (shown : d.text ≠ []) {keys : Text}
    (typing : ∀ c ∈ keys, TypingKey c) :
    ∃ d', d.pressAll keys = .ok d' ∧ backspace^[d.changes keys] d' = d := by
  induction keys generalizing d with
  | nil => exact ⟨d, rfl, rfl⟩
  | cons c keys ih =>
    obtain ⟨d₁, pressed, shown₁, taken_back⟩ := press_typing shown (typing c (by simp))
    obtain ⟨d', typed, undone⟩ := ih shown₁ fun k hk => typing k (by simp [hk])
    refine ⟨d', ?_, ?_⟩
    · rw [pressAll, pressed]
      exact typed
    · simp only [changes, pressed]
      by_cases same : d₁.text = d.text
      · have unchanged : d₁ = d := congrArg Display.mk same
        rw [if_pos same, Nat.zero_add, undone, unchanged]
      · have changed : d₁ ≠ d := fun h => same (congrArg Display.text h)
        rw [if_neg same, Nat.add_comm, Function.iterate_succ_apply', undone]
        exact taken_back.resolve_left changed

/-- Keys of digits, operators and the point are typed on a display that shows something, and then
backspace is pressed as often as one of them changed the text: the display is what it was. -/
theorem backspaces_undo_typing {d : Display} (shown : d.text ≠ []) {keys : Text}
    (typing : ∀ c ∈ keys, TypingKey c) :
    ∃ d', d.pressAll keys = .ok d' ∧
      ∀ back : Text, (∀ c ∈ back, BackspaceKey c) → back.length = d.changes keys →
        d'.pressAll back = .ok d ∧ d.pressAll (keys ++ back) = .ok d := by
  obtain ⟨d', typed, undone⟩ := pressAll_typing shown typing
  refine ⟨d', typed, fun back backspaces enough => ?_⟩
  have restored : d'.pressAll back = .ok d := by
    rw [pressAll_backspaces backspaces, enough, undone]
  exact ⟨restored, (pressAll_append typed back).trans restored⟩

/-- On the zero display the first key changes nothing and the next takes the place of the zero; the zero
after the minus sign is ignored. -/
theorem backspaces_undo_typing_zero :
    let keys := "0-05*.0".toList
    zero.text ≠ [] ∧ (∀ c ∈ keys, TypingKey c) ∧ zero.changes keys = 5 ∧
      zero.pressAll keys = .ok ⟨"-5x.0".toList⟩ ∧
      zero.pressAll (keys ++ "<<\x08<<".toList) = .ok zero := by
  intro keys
  have typing : ∀ c ∈ keys, TypingKey c := by
    have all : keys.all (TypingKey ·) := by decide
    simpa using all
  have backspaces : ∀ c ∈ "<<\x08<<".toList, BackspaceKey c := by simp [BackspaceKey]
  have shown : zero.text ≠ [] := by decide
  have count : zero.changes keys = 5 := by decide
  obtain ⟨d', typed, undone⟩ := backspaces_undo_typing shown typing
  exact ⟨shown, typing, count, rfl, (undone _ backspaces (by rw [count]; rfl)).2⟩

end Display

end DeskCalc
