import DeskCalc.Display
import DeskCalc.Text.Characters

/-! A session at the keyboard: each line typed is a row of keys, and the display is shown after it.  A
key that is not bound is passed over with a warning, and a line that asks to quit ends the session. -/

namespace DeskCalc

namespace Session

/-- The lines of what was typed, which end at line feeds only, without the carriage returns at their
ends. -/
def typedLines (input : Text) : List Text :=
  let pieces := Text.cut '\n' input
  let closed := if pieces.getLast? = some [] then pieces.dropLast else pieces
  closed.map (Text.dropEnd fun c => c = '\r' || c = '\n')

def quitWords : List Text := ["q".toList, "quit".toList, "exit".toList]

/-- Whether a line asks to quit: one of the words, in any case, with blanks around it.  No letter
beyond ASCII has a small form among their letters. -/
def isQuit (keys : Text) : Bool := quitWords.contains ((Text.trim keys).map Char.toLower)

/-- A key pressed if it is bound. -/
def pressBound (d : Display) (key : Char) : Display :=
  match d.press [key] with
  | .ok d' => d'
  | .error _ => d

def typeKeys (d : Display) (keys : Text) : Display := keys.foldl pressBound d

/-- The texts shown after the lines up to one that quits. -/
def shown : Display → List Text → List Text
  | _, [] => []
  | d, keys :: rest =>
    if isQuit keys then []
    else
      let d' := typeKeys d keys
      d'.text :: shown d' rest

/-- What a session prints: the display at the start and after each line. -/
def transcript (d : Display) (input : Text) : Text :=
  (d.text :: shown d (typedLines input)).flatMap (· ++ ['\n'])

/-- The records of a key: those of its command, or a warning. -/
def keyRecords (d : Display) (key : Char) : List Record :=
  match d.press [key] with
  | .ok _ => d.pressRecords [key]
  | .error e => [⟨.warning, "⌨️ ".toList ++ e.message⟩]

def keysRecords : Display → Text → List Record
  | _, [] => []
  | d, key :: rest => keyRecords d key ++ keysRecords (pressBound d key) rest

/-- The records of the lines up to one that quits. -/
def records : Display → List Text → List Record
  | _, [] => []
  | d, keys :: rest =>
    if isQuit keys then [] else keysRecords d keys ++ records (typeKeys d keys) rest

end Session

end DeskCalc
