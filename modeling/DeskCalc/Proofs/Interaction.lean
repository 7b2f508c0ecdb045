import DeskCalc.Proofs.Calls
import DeskCalc.Proofs.Lines
import DeskCalc.Proofs.Typing
import DeskCalc.Session
import Mathlib.Data.List.DropRight

/-! Sessions key by key.  A session is gone through line by line, each key is struck on the display, and
the display is printed after each line.  Only the keys that are bound count: what is printed after some
lines is the display after their bound keys, however these are spread over the lines, and carriage
returns at the ends of lines are none of them.  An empty display never comes to hold a line break. -/

namespace DeskCalc

/-! ### What lasts from call to call lasts through a session -/

namespace Display.Lasting

variable {P : Text → Prop} (lasting : Lasting P) {d : Display}

include lasting

theorem pressBound (h : P d.text) (key : Char) : P (Session.pressBound d key).text := by
  unfold Session.pressBound
  cases pressed : d.press [key] with
  | ok d' => exact lasting.call h (c := .press [key]) pressed
  | error e => exact h

theorem typeKeys (h : P d.text) (keys : Text) : P (Session.typeKeys d keys).text := by
  induction keys generalizing d with
  | nil => exact h
  | cons key rest ih => exact ih (lasting.pressBound h key)

theorem shown (h : P d.text) (lines : List Text) : ∀ t ∈ Session.shown d lines, P t := by
  induction lines generalizing d with
  | nil => simp [Session.shown]
  | cons keys rest ih =>
    rw [Session.shown]
    split
    · simp
    · have typed := lasting.typeKeys h keys
      exact List.forall_mem_cons.2 ⟨typed, ih typed⟩

end Display.Lasting

/-! ### Asking to quit -/

namespace Text

/-- A text is what trimming leaves of it, between blanks. -/
theorem exists_eq_trim_between (t : Text) : ∃ before after : Text, t = before ++ trim t ++ after ∧
    (∀ c ∈ before, isBlank c) ∧ ∀ c ∈ after, isBlank c := by
  refine ⟨t.takeWhile isBlank, (t.dropWhile isBlank).rtakeWhile isBlank, ?_,
    fun c => List.mem_takeWhile_imp, fun c => List.mem_rtakeWhile_imp⟩
  have back : trim t ++ (t.dropWhile isBlank).rtakeWhile isBlank = t.dropWhile isBlank :=
    List.rdropWhile_append_rtakeWhile ..
  rw [List.append_assoc, back, List.takeWhile_append_dropWhile]

theorem trim_between {before word after : Text} (front : ∀ c ∈ before, isBlank c)
    (back : ∀ c ∈ after, isBlank c) (solid : ∀ c ∈ word, ¬ isBlank c) (nonempty : word ≠ []) :
    trim (before ++ word ++ after) = word := by
  have fromStart : (before ++ word ++ after).dropWhile isBlank = word ++ after := by
    rw [List.append_assoc, List.dropWhile_append_of_pos front]
    obtain ⟨c, rest, rfl⟩ := List.exists_cons_of_ne_nil nonempty
    exact List.dropWhile_cons_of_neg (solid c List.mem_cons_self)
  have fromEnd : word.reverse.dropWhile isBlank = word.reverse := by
    obtain ⟨c, rest, reversed⟩ := List.exists_cons_of_ne_nil (mt List.reverse_eq_nil_iff.1 nonempty)
    rw [reversed]
    exact List.dropWhile_cons_of_neg (solid c (List.mem_reverse.1 (reversed ▸ List.mem_cons_self)))
  have back' : ∀ c ∈ after.reverse, isBlank c := fun c hc => back c (List.mem_reverse.1 hc)
  rw [trim, fromStart, dropEnd, List.reverse_append, List.dropWhile_append_of_pos back', fromEnd,
    List.reverse_reverse]

theorem toLower_of_isBlank {c : Char} (blank : isBlank c) : c.toLower = c := by
  unfold Char.toLower
  split
  · next upper =>
    have least : 65 ≤ c.toNat := UInt32.le_iff_toNat_le.1 upper.1
    have greatest : c.toNat ≤ 90 := UInt32.le_iff_toNat_le.1 upper.2
    simp [isBlank, blanksBeyondAscii] at blank
    omega
  · rfl

end Text

/-- A line asks to quit if it is one of three words, in any case, with blanks around it. -/
theorem Session.isQuit_iff {keys : Text} : isQuit keys ↔ ∃ before word after : Text,
    keys = before ++ word ++ after ∧ (∀ c ∈ before, Text.isBlank c) ∧ (∀ c ∈ after, Text.isBlank c) ∧
      word.map Char.toLower ∈ ["q".toList, "quit".toList, "exit".toList] := by
  rw [isQuit, List.contains_iff_mem]
  constructor
  · intro quits
    obtain ⟨before, after, split, front, back⟩ := Text.exists_eq_trim_between keys
    exact ⟨before, Text.trim keys, after, split, front, back, quits⟩
  · rintro ⟨before, word, after, rfl, front, back, quits⟩
    have nonempty : word ≠ [] := by
      rintro rfl
      exact absurd quits (by decide)
    have solid : ∀ c ∈ word, ¬ Text.isBlank c := by
      intro c hc blank
      have letters : ∀ w ∈ quitWords, ∀ c ∈ w, ¬ Text.isBlank c := by
        simp [quitWords, Text.isBlank, Text.blanksBeyondAscii]
      exact letters _ quits c (List.mem_map.2 ⟨c, hc, Text.toLower_of_isBlank blank⟩) blank
    rw [Text.trim_between front back solid nonempty]
    exact quits

/-! ### Going through a session -/

namespace Edit

/-- Strikes a key.  A key that is refused is passed over; any other fault breaks the session off. -/
def strike (key : Char) : Edit Unit :=
  tryCatch (press [key]) fun
    | .refused _ => return
    | fault => throw fault

def strikeAll : Text → Edit Unit
  | [] => return
  | key :: rest => do
    strike key
    strikeAll rest

theorem on_tryCatch {α : Type} (d : Display) (m : Edit α) (f : EditFault → Edit α) :
    (tryCatch m f).on d = match m.on d with
      | (.ok a, d') => (.ok a, d')
      | (.error e, d') => (f e).on d' := by
  unfold on ExceptT.run StateT.run
  simp only [tryCatch, tryCatchThe, MonadExceptOf.tryCatch, ExceptT.tryCatch, ExceptT.mk, bind,
    StateT.bind]
  cases m d with
  | mk ending d' => cases ending <;> rfl

theorem on_strike {d : Display} (h : d.text ≠ []) (key : Char) :
    (strike key).on d = (.ok (), Session.pressBound d key) := by
  unfold strike Session.pressBound
  rw [on_tryCatch, on_press d h]
  cases d.press [key] <;> rfl

theorem on_strikeAll {d : Display} (h : d.text ≠ []) (keys : Text) :
    (strikeAll keys).on d = (.ok (), Session.typeKeys d keys) := by
  induction keys generalizing d with
  | nil => rfl
  | cons key rest ih =>
    rw [strikeAll, on_bind, on_strike h]
    exact ih (Display.lasting_ne_nil.pressBound h key)

end Edit

namespace Session

theorem typeKeys_append (d : Display) (k l : Text) :
    typeKeys d (k ++ l) = typeKeys (typeKeys d k) l := List.foldl_append

/-- How a session went: how it ended, the display that it left, and what it printed. -/
structure Course where
  ending : Except EditFault Unit
  display : Display
  printed : Text

/-- Goes through lines up to one that quits. -/
def goThrough (d : Display) (printed : Text) : List Text → Course
  | [] => ⟨.ok (), d, printed⟩
  | keys :: rest =>
    if isQuit keys then ⟨.ok (), d, printed⟩
    else match (Edit.strikeAll keys).on d with
      | (.ok (), d') => goThrough d' (printed ++ (d'.text ++ ['\n'])) rest
      | (.error fault, d') => ⟨.error fault, d', printed⟩

def course (d : Display) (input : Text) : Course :=
  goThrough d (d.text ++ ['\n']) (typedLines input)

/-- The lines before the first that quits. -/
def obeyed (lines : List Text) : List Text := lines.takeWhile fun keys => !isQuit keys

/-- The texts printed, one for the start and one for each line that is obeyed. -/
def screens (d : Display) (input : Text) : List Text := d.text :: shown d (typedLines input)

theorem obeyed_cons_of_quit {keys : Text} (h : isQuit keys) (rest : List Text) :
    obeyed (keys :: rest) = [] := by
  simp [obeyed, h]

theorem obeyed_cons {keys : Text} (h : ¬ isQuit keys) (rest : List Text) :
    obeyed (keys :: rest) = keys :: obeyed rest := by
  simp [obeyed, h]

theorem goThrough_eq {d : Display} (h : d.text ≠ []) (printed : Text) (lines : List Text) :
    goThrough d printed lines = ⟨.ok (), typeKeys d (obeyed lines).flatten,
      printed ++ (shown d lines).flatMap (· ++ ['\n'])⟩ := by
  induction lines generalizing d printed with
  | nil => simp [goThrough, obeyed, shown, typeKeys]
  | cons keys rest ih =>
    rw [goThrough, shown]
    by_cases quits : isQuit keys
    · rw [if_pos quits, if_pos quits, obeyed_cons_of_quit quits]
      simp [typeKeys]
    · rw [if_neg quits, if_neg quits, obeyed_cons quits, Edit.on_strikeAll h]
      simp only
      rw [ih (Display.lasting_ne_nil.typeKeys h keys), List.flatten_cons, typeKeys_append,
        List.flatMap_cons, List.append_assoc]

/-- A session is never broken off, and prints its screens, a line for each. -/
theorem course_eq {d : Display} (h : d.text ≠ []) (input : Text) :
    course d input = ⟨.ok (), typeKeys d (obeyed (typedLines input)).flatten,
      (screens d input).flatMap (· ++ ['\n'])⟩ := by
  rw [course, goThrough_eq h, screens, List.flatMap_cons]

/-! ### The keys that count -/

/-- The bound keys among some keys. -/
def boundAmong (keys : Text) : Text := keys.filter fun c => [c] ∈ boundKeys

/-- Typing keys comes to pressing the bound ones, none of which is refused. -/
theorem pressAll_boundAmong (d : Display) (keys : Text) :
    d.pressAll (boundAmong keys) = .ok (typeKeys d keys) := by
  induction keys generalizing d with
  | nil => rfl
  | cons key rest ih =>
    have typed : typeKeys d (key :: rest) = typeKeys (pressBound d key) rest := rfl
    rw [typed, ← ih]
    cases bound : Command.ofKey? [key] with
    | none =>
      have unbound := Command.ofKey?_eq_none_iff.1 bound
      have passed : pressBound d key = d := by simp [pressBound, Display.press, bound]
      simp [boundAmong, unbound, passed]
    | some command =>
      have isBound : [key] ∈ boundKeys := by
        by_contra unbound
        cases (Command.ofKey?_eq_none_iff.2 unbound).symm.trans bound
      have pressed : d.press [key] = .ok (d.perform command) := by simp [Display.press, bound]
      have passed : pressBound d key = d.perform command := by simp [pressBound, pressed]
      simp only [boundAmong, isBound, decide_true, List.filter_cons_of_pos, Display.pressAll, pressed,
        passed]

theorem typeKeys_congr {k l : Text} (h : boundAmong k = boundAmong l) (d : Display) :
    typeKeys d k = typeKeys d l := by
  have typed := pressAll_boundAmong d k
  rw [h, pressAll_boundAmong] at typed
  exact (Except.ok.inj typed).symm

/-! ### What is printed -/

theorem length_shown (d : Display) (lines : List Text) :
    (shown d lines).length = (obeyed lines).length := by
  induction lines generalizing d with
  | nil => rfl
  | cons keys rest ih =>
    by_cases quits : isQuit keys
    · rw [shown, if_pos quits, obeyed_cons_of_quit quits]
    · rw [shown, if_neg quits, obeyed_cons quits, List.length_cons, List.length_cons, ih]

theorem getElem?_shown (d : Display) {lines : List Text} {k : Nat} (h : k ≤ (obeyed lines).length) :
    (d.text :: shown d lines)[k]? = some (typeKeys d ((obeyed lines).take k).flatten).text := by
  induction lines generalizing d k with
  | nil =>
    obtain rfl : k = 0 := Nat.le_zero.1 h
    rfl
  | cons keys rest ih =>
    cases k with
    | zero => rfl
    | succ k =>
      by_cases quits : isQuit keys
      · rw [obeyed_cons_of_quit quits] at h
        exact absurd h (Nat.not_succ_le_zero k)
      · rw [obeyed_cons quits, List.length_cons] at h
        rw [shown, if_neg quits, obeyed_cons quits, List.take_succ_cons, List.flatten_cons,
          typeKeys_append, List.getElem?_cons_succ]
        exact ih (typeKeys d keys) (Nat.le_of_succ_le_succ h)

theorem getElem?_screens (d : Display) {input : Text} {k : Nat}
    (h : k ≤ (obeyed (typedLines input)).length) :
    (screens d input)[k]? = some (typeKeys d ((obeyed (typedLines input)).take k).flatten).text :=
  getElem?_shown d h

theorem length_screens (d : Display) (input : Text) :
    (screens d input).length = (obeyed (typedLines input)).length + 1 := by
  rw [screens, List.length_cons, length_shown]

theorem getLast?_screens (d : Display) (input : Text) :
    (screens d input).getLast? = some (typeKeys d (obeyed (typedLines input)).flatten).text := by
  rw [List.getLast?_eq_getElem?, length_screens, Nat.add_sub_cancel, getElem?_screens d le_rfl,
    List.take_length]

/-! ### Carriage returns -/

/-- A carriage return put before every line feed. -/
def withReturns (t : Text) : Text := t.flatMap fun c => if c = '\n' then ['\r', '\n'] else [c]

theorem withReturns_feed (t : Text) : withReturns ('\n' :: t) = '\r' :: '\n' :: withReturns t := by
  simp [withReturns]

theorem withReturns_cons {c : Char} (h : c ≠ '\n') (t : Text) :
    withReturns (c :: t) = c :: withReturns t := by
  simp [withReturns, h]

/-- With carriage returns, every piece but the last ends with one. -/
theorem cut_withReturns {t : Text} {first : List Text} {last : Text}
    (h : Text.cut '\n' t = first ++ [last]) :
    Text.cut '\n' (withReturns t) = first.map (· ++ ['\r']) ++ [last] := by
  induction t generalizing first last with
  | nil =>
    have one : first = [] ∧ last = [] := by
      cases first with
      | nil => simpa [Text.cut, eq_comm] using h
      | cons piece first => simp [Text.cut] at h
    obtain ⟨rfl, rfl⟩ := one
    rfl
  | cons c t ih =>
    by_cases feed : c = '\n'
    · subst feed
      rw [Text.cut_cons_self] at h
      cases first with
      | nil => exact absurd (List.cons.inj h).2 (Text.cut_ne_nil _ _)
      | cons piece first =>
        obtain ⟨rfl, others⟩ := List.cons.inj h
        rw [withReturns_feed, Text.cut_cons_of_ne (by decide) (Text.cut_cons_self _ _), ih others]
        rfl
    · obtain ⟨piece, pieces, ht⟩ := List.exists_cons_of_ne_nil (Text.cut_ne_nil '\n' t)
      rw [Text.cut_cons_of_ne feed ht] at h
      rw [withReturns_cons feed]
      cases first with
      | nil =>
        obtain ⟨rfl, rfl⟩ := List.cons.inj h
        have one : Text.cut '\n' t = [] ++ [piece] := ht
        exact Text.cut_cons_of_ne feed (ih one)
      | cons p first =>
        obtain ⟨rfl, rfl⟩ := List.cons.inj h
        have more : Text.cut '\n' t = (piece :: first) ++ [last] := ht
        exact Text.cut_cons_of_ne feed (ih more)

theorem dropEnd_concat {p : Char → Bool} {c : Char} (h : p c) (t : Text) :
    Text.dropEnd p (t ++ [c]) = Text.dropEnd p t := by
  simp [Text.dropEnd, h]

theorem typedLines_withReturns (input : Text) :
    typedLines (withReturns input) = typedLines input := by
  obtain ⟨first, last, pieces⟩ : ∃ first last, Text.cut '\n' input = first ++ [last] :=
    ⟨_, _, (List.dropLast_concat_getLast (Text.cut_ne_nil '\n' input)).symm⟩
  have ended (t : Text) : Text.dropEnd (fun c => c = '\r' || c = '\n') (t ++ ['\r'])
      = Text.dropEnd (fun c => c = '\r' || c = '\n') t := dropEnd_concat (by decide) t
  unfold typedLines
  rw [cut_withReturns pieces, pieces]
  by_cases empty : last = []
  · simp [empty, ended]
  · simp [empty, ended]

/-! ### Line breaks -/

end Session

namespace Display

theorem unbroken_zeroText : Text.Unbroken zeroText := by decide

theorem isLineBoundary_keypad {c : Char} (key : KeypadChar c) : Text.isLineBoundary c = false := by
  rcases key with digit | rfl | ⟨o, rfl⟩
  · exact Text.isLineBoundary_of_isDigit digit
  · decide
  · cases o <;> decide

/-- No call puts a line break on the display: what is typed is on the keypad, and a result is on one
line. -/
theorem lasting_unbroken : Lasting Text.Unbroken where
  zero := unbroken_zeroText
  result := unbroken_resultText
  single key := Text.unbroken_cons.2 ⟨isLineBoundary_keypad key, Text.unbroken_nil⟩
  concat h key :=
    Text.unbroken_append.2 ⟨h, Text.unbroken_cons.2 ⟨isLineBoundary_keypad key, Text.unbroken_nil⟩⟩
  dropLast h _ := h.sublist (List.dropLast_sublist _)
  minus h := Text.unbroken_cons.2 ⟨by decide, h⟩
  unsigned h _ := (Text.unbroken_cons.1 h).2

end Display

namespace Session

/-- A session on any display comes to its end, and prints the display once at the start and once after
each line before the first that quits.  What is printed after some of these lines is the display after
pressing their bound keys one by one, so that the last text hangs on the bound keys only and not on how
they are spread over lines.  Carriage returns before the line feeds make no difference.  On an empty
display every text printed is on one line. -/
theorem session_shows_bound_keys (t input : Text) :
    let d := Display.ofText t
    let lines := obeyed (typedLines input)
    (course d input).ending = .ok () ∧
      (course d input).printed = transcript d input ∧
      transcript d input = (screens d input).flatMap (· ++ ['\n']) ∧
      (screens d input).length = lines.length + 1 ∧
      (∀ k ≤ lines.length, ∃ d', d.pressAll (boundAmong (lines.take k).flatten) = .ok d' ∧
        (screens d input)[k]? = some d'.text) ∧
      (∀ other, boundAmong (obeyed (typedLines other)).flatten = boundAmong lines.flatten →
        (course d other).display = (course d input).display ∧
          (screens d other).getLast? = (screens d input).getLast?) ∧
      course d (withReturns input) = course d input ∧
      (∀ s ∈ screens .zero input, Text.Unbroken s) ∧
      Text.lines (course .zero input).printed = screens .zero input ∧
      (Text.lines (course .zero input).printed).length = lines.length + 1 := by
  intro d lines
  have whole := course_eq (Display.ofText_ne_nil t)
  have fresh : ∀ s ∈ screens .zero input, Text.Unbroken s :=
    List.forall_mem_cons.2 ⟨Display.unbroken_zeroText, Display.lasting_unbroken.shown Display.unbroken_zeroText _⟩
  have printed : Text.lines (course .zero input).printed = screens .zero input := by
    rw [course_eq (by decide)]
    exact Text.lines_flatMap fresh
  refine ⟨?_, ?_, rfl, length_screens d input, fun k hk => ?_, fun other same => ?_, ?_, fresh,
    printed, ?_⟩
  · rw [whole]
  · rw [whole]
    rfl
  · exact ⟨_, pressAll_boundAmong d _, getElem?_screens d hk⟩
  · rw [whole, whole, getLast?_screens, getLast?_screens, typeKeys_congr same]
    exact ⟨rfl, rfl⟩
  · rw [course, course, typedLines_withReturns]
  · rw [printed]
    exact length_screens .zero input

end Session

end DeskCalc
