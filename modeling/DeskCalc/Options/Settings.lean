import DeskCalc.FileStore
import DeskCalc.Journal
import DeskCalc.Options.Arguments

/-! The settings of a run of the program: what the arguments ask for, once the file is there and the
level has a name.  Anything else ends the program with a usage message, or with help. -/

namespace DeskCalc

/-- What the program is asked to do. -/
structure Settings where
  expressions : List Text
  file? : Option FilePath
  interactive : Bool
  level? : Option Level
  deriving DecidableEq

/-- Why the value of an option does not do. -/
inductive SettingFault where
  | notFile (value : Text)
  | notPath
  | notLevel (value : FlagValue)
  deriving DecidableEq

def namedLevels : List Level := [.debug, .info, .warning, .error, .critical]

namespace SettingFault

/-- The longest start of a text that has at most `limit` bytes. -/
def startWithin (limit : Nat) : Text → Text
  | [] => []
  | c :: rest => if c.utf8Size ≤ limit then c :: startWithin (limit - c.utf8Size) rest else []

/-- A shown value, cut in the middle when it is longer than fifty bytes: at most 25 bytes of its start
and 24 of its end are left. -/
def shorten (t : Text) : Text :=
  if Text.byteCount t ≤ 50 then t
  else startWithin 25 t ++ "...".toList ++ (startWithin 24 t.reverse).reverse

/-- A fault of a field: what is wrong, the kind of fault, and the value with its type. -/
def describe (field what kind value type : Text) : Text :=
  field ++ "\n  ".toList ++ what ++ " [type=".toList ++ kind ++ ", input_value=".toList
    ++ shorten value ++ ", input_type=".toList ++ type ++ [']']

def shownValue : FlagValue → Text × Text
  | .text t => (Text.quoted t, "str".toList)
  | .dropped => ("[]".toList, "list".toList)

def message : SettingFault → Text
  | notFile value =>
    describe "file_path".toList "Path does not point to a file".toList "path_not_file".toList
      (Text.quoted value) "str".toList
  | notPath =>
    describe "file_path".toList "Input is not a valid path for <class 'pathlib.Path'>".toList
      "path_type".toList "[]".toList "list".toList
  | notLevel value =>
    let names := namedLevels.map fun l => Text.quoted l.name
    describe "log_level".toList ("Input should be ".toList ++ Text.alternatives names)
      "literal_error".toList (shownValue value).1 (shownValue value).2

end SettingFault

/-- Why the program does not run. -/
inductive UsageError where
  | arguments (e : ArgumentError)
  | settings (faults : List SettingFault)
  | nothingToDo
  deriving DecidableEq

namespace UsageError

def message : UsageError → Text
  | arguments e => e.message
  | settings faults =>
    let count := faults.length
    Text.join ['\n']
      ((Text.ofNat count
          ++ (if count = 1 then " validation error" else " validation errors").toList
          ++ " for CliArgs".toList)
        :: faults.map SettingFault.message)
  | nothingToDo => "nothing to do: give expressions, --file or --interactive".toList

end UsageError

/-- An end before anything is evaluated. -/
inductive EarlyEnd where
  | help
  | usage (e : UsageError)
  deriving DecidableEq

namespace EarlyEnd

def program : Text := "tree-calculator".toList

def usageText : Text :=
  "usage: ".toList ++ program
    ++ " [-h] [-f FILE_PATH] [-i] [--log-level LOG_LEVEL]\n".toList
    ++ "                       [expressions ...]\n".toList

def helpText : Text :=
  usageText
    ++ "\nEvaluate calculator expressions such as 2+3x4 or -5+3\n".toList
    ++ "\npositional arguments:\n".toList
    ++ "  expressions           Expressions to evaluate (use -- before a leading '-')\n".toList
    ++ "\noptions:\n".toList
    ++ "  -h, --help            show this help message and exit\n".toList
    ++ "  -f FILE_PATH, --file FILE_PATH\n".toList
    ++ "                        File or archive holding one expression per line\n".toList
    ++ "  -i, --interactive     Drive the calculator display from the keyboard\n".toList
    ++ "  --log-level LOG_LEVEL\n".toList
    ++ "                        Log level, overrides $TREE_CALCULATOR_LOG_LEVEL\n".toList

def status : EarlyEnd → Nat
  | help => 0
  | usage _ => 2

def output : EarlyEnd → Text
  | help => helpText
  | usage _ => []

def errorOutput : EarlyEnd → Text
  | help => []
  | usage e => usageText ++ program ++ ": error: ".toList ++ e.message ++ ['\n']

end EarlyEnd

/-- Why there are no settings. -/
inductive NoSettings where
  /-- The program ends before it has evaluated anything. -/
  | ends (e : EarlyEnd)
  /-- It cannot be told whether there is a file. -/
  | file (fault : FileFault)
  deriving DecidableEq

namespace Settings

/-- Why it cannot be told whether the file of the arguments is there. -/
def fileFault? (s : FileStore) (a : Arguments) : Option FileFault :=
  match a.file? with
  | some (.text t) => s.unknowable? (FilePath.parse t)
  | _ => none

/-- The path of a file option, if there is a file. -/
def checkFile (s : FileStore) : Option FlagValue → Except SettingFault (Option FilePath)
  | none => .ok none
  | some .dropped => .error .notPath
  | some (.text t) =>
    if s.isFile (FilePath.parse t) then .ok (some (FilePath.parse t)) else .error (.notFile t)

/-- The level of a level option, if it is the name of one. -/
def checkLevel : Option FlagValue → Except SettingFault (Option Level)
  | none => .ok none
  | some (.text t) =>
    match namedLevels.find? (·.name == t) with
    | some l => .ok (some l)
    | none => .error (.notLevel (.text t))
  | some .dropped => .error (.notLevel .dropped)

def check (s : FileStore) (a : Arguments) : Except UsageError Settings :=
  match checkFile s a.file?, checkLevel a.logLevel? with
  | .error e, .error e' => .error (.settings [e, e'])
  | .error e, .ok _ => .error (.settings [e])
  | .ok _, .error e => .error (.settings [e])
  | .ok file?, .ok level? =>
    if a.expressions.isEmpty && file?.isNone && !a.interactive then .error .nothingToDo
    else .ok ⟨a.expressions, file?, a.interactive, level?⟩

/-- The settings of a command line.  The file is looked for before the level is read. -/
def parse (s : FileStore) (arguments : List Text) : Except NoSettings Settings :=
  match Arguments.parse arguments with
  | .error .help => .error (.ends .help)
  | .error (.error e) => .error (.ends (.usage (.arguments e)))
  | .ok a =>
    match fileFault? s a with
    | some fault => .error (.file fault)
    | none =>
      match check s a with
      | .error e => .error (.ends (.usage e))
      | .ok settings => .ok settings

end Settings

end DeskCalc
