import DeskCalc.Text.Characters
import DeskCalc.Text.Quoted
import DeskCalc.Text.UpperCase

/-! The arguments of the command line.  Each argument is first given a shape by its own text: an option,
the double dash after which all arguments are plain, or a plain argument.  The arguments are then taken
in order.  Plain arguments are expressions as long as they stand in one row; those after an option that
ends the row are not recognized. -/

namespace DeskCalc

inductive Flag where
  | help
  | file
  | interactive
  | logLevel
  deriving DecidableEq, Repr

namespace Flag

/-- Every spelling with its option, in the order in which help shows them. -/
def spellings : List (Text × Flag) :=
  [("-h".toList, help), ("--help".toList, help), ("-f".toList, file), ("--file".toList, file),
    ("-i".toList, interactive), ("--interactive".toList, interactive),
    ("--log-level".toList, logLevel)]

def ofSpelling? (t : Text) : Option Flag := (spellings.find? (·.1 == t)).map (·.2)

/-- The spellings of an option with a slash between them. -/
def name (f : Flag) : Text :=
  Text.join ['/'] ((spellings.filter (·.2 == f)).map (·.1))

def takesValue : Flag → Bool
  | help | interactive => false
  | file | logLevel => true

end Flag

/-- An option as it was given: its full spelling, and the value in the same argument, if any. -/
structure GivenFlag where
  flag : Flag
  spelling : Text
  attached? : Option Text
  deriving DecidableEq

inductive Shape where
  | plain
  | doubleDash
  | option (g : GivenFlag)
  | unknown
  deriving DecidableEq

/-- Why the arguments cannot be taken. -/
inductive ArgumentError where
  | ambiguous (argument : Text) (spellings : List Text)
  | expectedValue (f : Flag)
  | ignoredValue (f : Flag) (value : Text)
  | unrecognized (arguments : List Text)
  deriving DecidableEq

namespace ArgumentError

def message : ArgumentError → Text
  | ambiguous argument spellings =>
    "ambiguous option: ".toList ++ argument ++ " could match ".toList
      ++ Text.join [',', ' '] spellings
  | expectedValue f => "argument ".toList ++ f.name ++ ": expected one argument".toList
  | ignoredValue f value =>
    "argument ".toList ++ f.name ++ ": ignored explicit argument ".toList ++ Text.quoted value
  | unrecognized arguments => "unrecognized arguments: ".toList ++ Text.join [' '] arguments

end ArgumentError

/-- A negative number: a minus sign, and digits of any script with at most one point that has a digit
after it.  A line feed may end it. -/
def looksNegative : Text → Bool
  | '-' :: t =>
    let body := if t.getLast? = some '\n' then t.dropLast else t
    match body.dropWhile Text.isDecimalDigit with
    | [] => !body.isEmpty
    | '.' :: fraction => !fraction.isEmpty && fraction.all Text.isDecimalDigit
    | _ => false
  | _ => false

/-- An argument cut at its first equals sign, if it has one. -/
def splitEquals (t : Text) : Text × Option Text :=
  match t.dropWhile (· ≠ '=') with
  | [] => (t, none)
  | _ :: value => (t.takeWhile (· ≠ '='), some value)

/-- The options that an argument may abbreviate: by the start of a long spelling, or by a short spelling
with a value right after it. -/
def abbreviated (t : Text) : List GivenFlag :=
  match t with
  | '-' :: '-' :: _ =>
    let (start, value?) := splitEquals t
    (Flag.spellings.filter fun s => start.isPrefixOf s.1).map fun s => ⟨s.2, s.1, value?⟩
  | _ =>
    (Flag.spellings.filter fun s => s.1 == t.take 2).map fun s => ⟨s.2, s.1, some (t.drop 2)⟩

/-- The shape of an argument other than the double dash. -/
def shapeOf (t : Text) : Except ArgumentError Shape :=
  match t with
  | '-' :: _ :: _ =>
    let (start, value?) := splitEquals t
    match Flag.ofSpelling? t, value?, Flag.ofSpelling? start with
    | some f, _, _ => .ok (.option ⟨f, t, none⟩)
    | none, some value, some f => .ok (.option ⟨f, start, some value⟩)
    | _, _, _ =>
      match abbreviated t with
      | [g] => .ok (.option g)
      | _ :: _ => .error (.ambiguous t ((abbreviated t).map (·.spelling)))
      | [] => .ok (if looksNegative t || t.contains ' ' then .plain else .unknown)
  | _ => .ok .plain

def doubleDash : Text := ['-', '-']

/-- Arguments with their shapes; after the first double dash every argument is plain. -/
def shapes : List Text → Except ArgumentError (List (Text × Shape))
  | [] => .ok []
  | t :: rest =>
    if t = doubleDash then .ok ((t, .doubleDash) :: rest.map (·, .plain))
    else match shapeOf t with
      | .error e => .error e
      | .ok shape =>
        match shapes rest with
        | .error e => .error e
        | .ok more => .ok ((t, shape) :: more)

/-- The options in one argument: those without a value, and one with a value at the end.  The value is
missing when it stands in the next argument. -/
structure Cluster where
  simple : List Flag
  valued? : Option (Flag × Option Text)

/-- Options of one letter each in a row, the first of which is `f`. -/
def Cluster.ofLetters (f : Flag) : Text → Except ArgumentError Cluster
  | [] => .ok ⟨[f], none⟩
  | c :: rest =>
    match Flag.ofSpelling? ['-', c] with
    | none => .error (.ignoredValue f (c :: rest))
    | some g =>
      if g.takesValue then .ok ⟨[f], some (g, if rest.isEmpty then none else some rest)⟩
      else match ofLetters g rest with
        | .error e => .error e
        | .ok cluster => .ok { cluster with simple := f :: cluster.simple }

/-- The options of a given one.  An option without a value takes what is attached to its short spelling
for further letters. -/
def GivenFlag.cluster (g : GivenFlag) : Except ArgumentError Cluster :=
  if g.flag.takesValue then .ok ⟨[], some (g.flag, g.attached?)⟩
  else match g.attached? with
    | none => .ok ⟨[g.flag], none⟩
    | some value =>
      if g.spelling.length = 2 && !value.isEmpty then Cluster.ofLetters g.flag value
      else .error (.ignoredValue g.flag value)

/-- The value of an option.  A double dash attached to an option leaves it without a value. -/
inductive FlagValue where
  | text (t : Text)
  | dropped
  deriving DecidableEq

def FlagValue.ofText (t : Text) : FlagValue := if t = doubleDash then .dropped else .text t

/-- What has been taken from the arguments so far.  The row of expressions is `none` until a plain
argument begins it, and `closed` once an option has ended it. -/
structure Arguments where
  row? : Option (List Text)
  closed : Bool
  file? : Option FlagValue
  interactive : Bool
  logLevel? : Option FlagValue
  unrecognized : List Text
  deriving DecidableEq

namespace Arguments

def none : Arguments := ⟨.none, false, .none, false, .none, []⟩

/-- The expressions: the row of plain arguments without its first double dash. -/
def expressions (a : Arguments) : List Text := (a.row?.getD []).erase doubleDash

/-- A plain argument goes to the row, unless that is closed. -/
def takePlain (a : Arguments) (t : Text) : Arguments :=
  if a.closed then { a with unrecognized := a.unrecognized ++ [t] }
  else { a with row? := some (a.row?.getD [] ++ [t]) }

/-- An option ends the row that has been begun. -/
def close (a : Arguments) : Arguments := { a with closed := a.closed || a.row?.isSome }

/-- The value of an option.  Levels are taken in upper case. -/
def takeValue (a : Arguments) (f : Flag) (value : Text) : Arguments :=
  match f, FlagValue.ofText value with
  | .file, v => { a with file? := some v }
  | .logLevel, .text t => { a with logLevel? := some (.text (Text.upperCase t)) }
  | .logLevel, .dropped => { a with logLevel? := some .dropped }
  | _, _ => a

/-- Options without a value, in order; help stops everything else. -/
def takeSimple (a : Arguments) : List Flag → Option Arguments
  | [] => some a
  | .help :: _ => .none
  | .interactive :: rest => ({ a with interactive := true } : Arguments).takeSimple rest
  | _ :: rest => a.takeSimple rest

end Arguments

/-- Why the arguments were not taken to their end. -/
inductive Stop where
  | help
  | error (e : ArgumentError)
  deriving DecidableEq

/-- Takes shaped arguments in order. -/
def takeArguments (a : Arguments) : List (Text × Shape) → Except Stop Arguments
  | [] => .ok a
  | (t, .plain) :: rest => takeArguments (a.takePlain t) rest
  | (t, .doubleDash) :: rest => takeArguments (a.takePlain t) rest
  | (t, .unknown) :: rest =>
    takeArguments { a.close with unrecognized := a.unrecognized ++ [t] } rest
  | (_, .option g) :: rest =>
    match g.cluster with
    | .error e => .error (.error e)
    | .ok ⟨simple, .none⟩ =>
      match a.close.takeSimple simple with
      | .none => .error .help
      | some b => takeArguments b rest
    | .ok ⟨simple, some (f, some value)⟩ =>
      match a.close.takeSimple simple with
      | .none => .error .help
      | some b => takeArguments (b.takeValue f value) rest
    | .ok ⟨simple, some (f, .none)⟩ =>
      match rest with
      | (value, .plain) :: rest =>
        match a.close.takeSimple simple with
        | .none => .error .help
        | some b => takeArguments (b.takeValue f value) rest
      | _ => .error (.error (.expectedValue f))

def Arguments.parse (arguments : List Text) : Except Stop Arguments :=
  match shapes arguments with
  | .error e => .error (.error e)
  | .ok shaped =>
    match takeArguments .none shaped with
    | .error stop => .error stop
    | .ok a => if a.unrecognized = [] then .ok a else .error (.error (.unrecognized a.unrecognized))

end DeskCalc
