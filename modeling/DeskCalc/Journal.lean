import DeskCalc.Text.Quoted
import DeskCalc.Text.UpperCase

/-! The journal: records of what was done, each with a level, and the level below which they are not
shown.  The level is set by name, or comes from an environment variable when the journal is set up. -/

namespace DeskCalc

/-- How much a record matters. -/
inductive Level where
  | notset
  | debug
  | info
  | warning
  | error
  | critical
  deriving DecidableEq, Repr

namespace Level

def number : Level → Nat
  | notset => 0
  | debug => 10
  | info => 20
  | warning => 30
  | error => 40
  | critical => 50

def name : Level → Text
  | notset => "NOTSET".toList
  | debug => "DEBUG".toList
  | info => "INFO".toList
  | warning => "WARNING".toList
  | error => "ERROR".toList
  | critical => "CRITICAL".toList

/-- The names that a level is set by, in upper case; two levels have a second name. -/
def names : List (Text × Level) :=
  [notset, debug, info, warning, error, critical].map (fun l => (l.name, l))
    ++ [("WARN".toList, warning), ("FATAL".toList, critical)]

/-- The level of a name in upper case. -/
def ofName? (t : Text) : Option Level := (names.find? (·.1 == t)).map (·.2)

end Level

structure Record where
  level : Level
  message : Text
  deriving DecidableEq

/-- The name that records are kept under. -/
def journalName : Text := "tree_calculator".toList

/-- A record as a line: its level, the name of the journal and the message. -/
def Record.line (r : Record) : Text :=
  r.level.name ++ " - ".toList ++ journalName ++ " - ".toList ++ r.message

/-- The settings of the journal: the level that was set, and the level that the environment variable
requests, if it is set. -/
structure Journal where
  level : Level
  requested : Option Text

namespace Journal

/-- The environment variable that names the level. -/
def variableName : Text := "TREE_CALCULATOR_LOG_LEVEL".toList

def defaultLevel : Level := .info

/-- A journal at the default level, with no variable set. -/
def start : Journal := ⟨defaultLevel, none⟩

/-- The least level that is shown.  A journal without a level shows what matters at least as much as
a warning. -/
def threshold (j : Journal) : Nat :=
  (if j.level = .notset then Level.warning else j.level).number

def shown (j : Journal) (records : List Record) : List Record :=
  records.filter (j.threshold ≤ ·.level.number)

/-- No level has the name, which is given in upper case. -/
structure UnknownLevel where
  name : Text

def UnknownLevel.message (e : UnknownLevel) : Text := "Unknown level: ".toList ++ Text.quoted e.name

/-- The journal with the level of a name in any case. -/
def setLevel (j : Journal) (name : Text) : Except UnknownLevel Journal :=
  let upper := Text.upperCase name
  match Level.ofName? upper with
  | some level => .ok { j with level }
  | none => .error ⟨upper⟩

/-- The journal set up anew from its environment variable.  A name that no level has gives the default
level and a warning. -/
def setUp (j : Journal) : Journal × List Record :=
  match j.requested with
  | none => ({ j with level := defaultLevel }, [])
  | some name =>
    match j.setLevel name with
    | .ok j' => (j', [])
    | .error e =>
      ({ j with level := defaultLevel },
        [⟨.warning, "📝 Unknown log level ".toList ++ Text.quoted e.name ++ " in ".toList
          ++ variableName ++ ", using ".toList ++ defaultLevel.name⟩])

end Journal

end DeskCalc
