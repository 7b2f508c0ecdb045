import DeskCalc.Proofs.Modes

/-! Options before the double dash.  An option that is given in full takes its own arguments and
leaves the row of expressions unbegun, so that options may come in any number and order; the last of
several paths, or of several levels, is the one that counts.  What follows the double dash is
expressions, whatever it looks like.  So the settings are those that the options ask for, and the
command line is refused only when it asks for nothing. -/

namespace DeskCalc

/-- An option given in full: its short or long spelling, and its value in an argument of its own. -/
inductive FullOption where
  | interactive (long : Bool)
  | file (long : Bool) (path : Text)
  | level (name : Text)

namespace FullOption

def flag : FullOption → Flag
  | interactive _ => .interactive
  | file _ _ => .file
  | level _ => .logLevel

def spelling : FullOption → Text
  | interactive long => if long then "--interactive".toList else "-i".toList
  | file long _ => if long then "--file".toList else "-f".toList
  | level _ => "--log-level".toList

/-- The arguments of an option: its spelling, and its value if it takes one. -/
def arguments (o : FullOption) : List Text :=
  o.spelling :: match o with
    | interactive _ => []
    | file _ path => [path]
    | level name => [name]

def isInteractive : FullOption → Bool
  | interactive _ => true
  | _ => false

def path? : FullOption → Option Text
  | file _ path => some path
  | _ => none

def levelName? : FullOption → Option Text
  | level name => some name
  | _ => none

/-- The last of the paths that options give. -/
def lastPath? (options : List FullOption) : Option Text := options.reverse.findSome? path?

/-- The last of the names of levels that options give. -/
def lastLevel? (options : List FullOption) : Option Text := options.reverse.findSome? levelName?

theorem lastPath?_concat (options : List FullOption) (o : FullOption) :
    lastPath? (options ++ [o]) = o.path?.or (lastPath? options) := by
  rw [lastPath?, List.reverse_concat, List.findSome?_cons]
  cases o.path? <;> rfl

theorem lastLevel?_concat (options : List FullOption) (o : FullOption) :
    lastLevel? (options ++ [o]) = o.levelName?.or (lastLevel? options) := by
  rw [lastLevel?, List.reverse_concat, List.findSome?_cons]
  cases o.levelName? <;> rfl

/-- The value of the option will do: the path does not begin with a dash and leads to a file, and the
level has that name, in whatever case. -/
def Valid (s : FileStore) : FullOption → Prop
  | interactive _ => True
  | file _ path => path.head? ≠ some '-' ∧ s.isFile (FilePath.parse path) = true
  | level name => ∃ l ∈ namedLevels, Text.upperCase name = l.name

instance (s : FileStore) : (o : FullOption) → Decidable (o.Valid s)
  | interactive _ => .isTrue trivial
  | file _ path => inferInstanceAs (Decidable (path.head? ≠ some '-' ∧ _))
  | level name => inferInstanceAs (Decidable (∃ l ∈ namedLevels, Text.upperCase name = l.name))

end FullOption

/-- A spelling in full is no abbreviation, and has no value attached. -/
theorem FullOption.shapeOf_spelling (o : FullOption) :
    shapeOf o.spelling = .ok (.option ⟨o.flag, o.spelling, none⟩) := by
  cases o with
  | interactive long => cases long <;> rfl
  | file long path => cases long <;> rfl
  | level name => rfl

/-! ### Levels -/

theorem upperCase_dash (t : Text) : Text.upperCase ('-' :: t) = '-' :: Text.upperCase t := by
  rw [Text.upperCase, List.flatMap_cons]
  rfl

/-- The name of a level begins with no dash, in whatever case. -/
theorem head?_of_levelName {name : Text} {l : Level} (named : l ∈ namedLevels)
    (same : Text.upperCase name = l.name) : name.head? ≠ some '-' := by
  have noDash : ∀ l ∈ namedLevels, l.name.head? ≠ some '-' := by decide
  intro dash
  obtain ⟨t, rfl⟩ := List.head?_eq_some_iff.1 dash
  rw [upperCase_dash] at same
  exact noDash l named (same ▸ rfl)

theorem Level.name_injective : Function.Injective Level.name := fun a b => by
  cases a <;> cases b <;> decide

theorem Settings.checkLevel_of_name {l : Level} (named : l ∈ namedLevels) :
    checkLevel (some (.text l.name)) = .ok (some l) := by
  have found : ∀ l ∈ namedLevels, namedLevels.find? (·.name == l.name) = some l := by decide
  simp only [checkLevel, found l named]

/-! ### Taking options -/

theorem ne_doubleDash {t : Text} (plain : t.head? ≠ some '-') : t ≠ doubleDash := by
  rintro rfl
  exact plain rfl

namespace Arguments

/-- Takes arguments from the first to the last, starting with what was taken before. -/
def takeAll (a : Arguments) (arguments : List Text) : Except Stop Arguments :=
  match shapes arguments with
  | .error e => .error (.error e)
  | .ok shaped => takeArguments a shaped

theorem parse_eq (arguments : List Text) : parse arguments = match takeAll .none arguments with
    | .error stop => .error stop
    | .ok a => if a.unrecognized = [] then .ok a else .error (.error (.unrecognized a.unrecognized)) := by
  unfold parse takeAll
  cases shapes arguments <;> rfl

/-- No plain argument has been taken. -/
structure Unbegun (a : Arguments) : Prop where
  row : a.row? = .none
  opened : a.closed = false

theorem Unbegun.close {a : Arguments} (h : a.Unbegun) : a.close = a := by
  obtain ⟨row?, closed, file?, interactive, logLevel?, unrecognized⟩ := a
  obtain ⟨rfl, rfl⟩ := h
  rfl

theorem takeAll_doubleDash {a : Arguments} (h : a.Unbegun) (xs : List Text) :
    a.takeAll (doubleDash :: xs) = .ok { a with row? := some (doubleDash :: xs) } := by
  have begun : a.takePlain doubleDash = { a with row? := some [doubleDash] } := by
    simp [takePlain, h.row, h.opened]
  rw [takeAll, shapes_doubleDash]
  simp only [takeArguments, begun]
  exact takeArguments_plain (a := { a with row? := some [doubleDash] }) h.opened rfl xs

theorem takeAll_interactive {a : Arguments} (h : a.Unbegun) {spelling : Text}
    (shape : shapeOf spelling = .ok (.option ⟨.interactive, spelling, .none⟩))
    (rest : List Text) : a.takeAll (spelling :: rest) = takeAll { a with interactive := true } rest := by
  have notDash : spelling ≠ doubleDash := by
    rintro rfl
    cases shape
  simp only [takeAll, shapes, if_neg notDash, shape]
  cases shapes rest with
  | error e => rfl
  | ok shaped =>
    simp only [takeArguments, GivenFlag.cluster, Flag.takesValue, h.close]
    rfl

/-- An option takes its value from the next argument, if that is a plain one. -/
theorem takeAll_valued {a : Arguments} (h : a.Unbegun) {f : Flag} {spelling value : Text}
    (takes : f.takesValue = true) (shape : shapeOf spelling = .ok (.option ⟨f, spelling, .none⟩))
    (plain : value.head? ≠ some '-') (rest : List Text) :
    a.takeAll (spelling :: value :: rest) = (a.takeValue f value).takeAll rest := by
  have notDash : spelling ≠ doubleDash := by
    rintro rfl
    cases shape
  simp only [takeAll, shapes, if_neg notDash, if_neg (ne_doubleDash plain), shape, shapeOf_plain plain]
  cases shapes rest with
  | error e => rfl
  | ok shaped =>
    simp only [takeArguments, GivenFlag.cluster, takes, if_true, takeSimple, h.close]

/-- What is taken of some options: that there is one for a session, the last path, and the last level in
upper case. -/
def ofOptions (options : List FullOption) : Arguments where
  row? := .none
  closed := false
  file? := (FullOption.lastPath? options).map .text
  interactive := options.any FullOption.isInteractive
  logLevel? := (FullOption.lastLevel? options).map fun name => .text (Text.upperCase name)
  unrecognized := []

theorem unbegun_ofOptions (options : List FullOption) : (ofOptions options).Unbegun := ⟨rfl, rfl⟩

theorem ofOptions_concat (options : List FullOption) (o : FullOption) : ofOptions (options ++ [o])
    = { ofOptions options with
        file? := (o.path?.map .text).or (ofOptions options).file?
        interactive := (ofOptions options).interactive || o.isInteractive
        logLevel? := (o.levelName?.map fun name => .text (Text.upperCase name)).or
          (ofOptions options).logLevel? } := by
  simp [ofOptions, FullOption.lastPath?_concat, FullOption.lastLevel?_concat, Option.map_or]

theorem takeValue_file (a : Arguments) {path : Text} (plain : path.head? ≠ some '-') :
    a.takeValue .file path = { a with file? := some (.text path) } := by
  simp [takeValue, FlagValue.ofText, ne_doubleDash plain]

theorem takeValue_logLevel (a : Arguments) {name : Text} (plain : name.head? ≠ some '-') :
    a.takeValue .logLevel name = { a with logLevel? := some (.text (Text.upperCase name)) } := by
  simp [takeValue, FlagValue.ofText, ne_doubleDash plain]

variable {s : FileStore}

/-- One more option is taken with all that it gives. -/
theorem takeAll_option (options : List FullOption) {o : FullOption} (valid : o.Valid s)
    (rest : List Text) : (ofOptions options).takeAll (o.arguments ++ rest)
      = (ofOptions (options ++ [o])).takeAll rest := by
  have unbegun := unbegun_ofOptions options
  have shape := o.shapeOf_spelling
  rw [ofOptions_concat]
  cases o with
  | interactive long =>
    refine (takeAll_interactive unbegun shape rest).trans (congrArg (takeAll · rest) ?_)
    simp [FullOption.path?, FullOption.levelName?, FullOption.isInteractive]
  | file long path =>
    refine (takeAll_valued unbegun rfl shape valid.1 rest).trans (congrArg (takeAll · rest) ?_)
    rw [FullOption.flag, takeValue_file _ valid.1]
    simp [FullOption.path?, FullOption.levelName?, FullOption.isInteractive]
  | level name =>
    obtain ⟨l, named, same⟩ := valid
    have plain := head?_of_levelName named same
    refine (takeAll_valued unbegun rfl shape plain rest).trans (congrArg (takeAll · rest) ?_)
    rw [FullOption.flag, takeValue_logLevel _ plain]
    simp [FullOption.path?, FullOption.levelName?, FullOption.isInteractive]

/-- Options are taken one after another, whatever follows them. -/
theorem takeAll_options (before : List FullOption) {options : List FullOption}
    (valid : ∀ o ∈ options, o.Valid s) (rest : List Text) :
    (ofOptions before).takeAll (options.flatMap FullOption.arguments ++ rest)
      = (ofOptions (before ++ options)).takeAll rest := by
  -- What is taken grows while what is to come shrinks, so the induction leaves `before` free.
  induction options generalizing before with
  | nil => simp
  | cons o options ih =>
    obtain ⟨first, others⟩ := List.forall_mem_cons.1 valid
    rw [List.flatMap_cons, List.append_assoc, takeAll_option before first, ih (before ++ [o]) others,
      List.append_assoc, List.singleton_append]

theorem parse_options {options : List FullOption} (valid : ∀ o ∈ options, o.Valid s) (xs : List Text) :
    parse (options.flatMap FullOption.arguments ++ doubleDash :: xs)
      = .ok { ofOptions options with row? := some (doubleDash :: xs) } := by
  have start : Arguments.none = ofOptions [] := rfl
  rw [parse_eq, start, takeAll_options [] valid, List.nil_append,
    takeAll_doubleDash (unbegun_ofOptions options)]
  exact if_pos rfl

end Arguments

/-! ### Settings -/

namespace Settings

section

variable {s : FileStore} {options : List FullOption} (valid : ∀ o ∈ options, o.Valid s)
include valid

theorem isFile_of_lastPath {path : Text} (last : FullOption.lastPath? options = some path) :
    s.isFile (FilePath.parse path) = true := by
  obtain ⟨o, there, given⟩ := List.exists_of_findSome?_eq_some last
  have good := valid o (List.mem_reverse.1 there)
  cases o with
  | file long other =>
    obtain rfl := Option.some.inj given
    exact good.2
  | interactive long => cases given
  | level name => cases given

theorem exists_level_of_lastLevel {name : Text} (last : FullOption.lastLevel? options = some name) :
    ∃ l ∈ namedLevels, Text.upperCase name = l.name := by
  obtain ⟨o, there, given⟩ := List.exists_of_findSome?_eq_some last
  have good := valid o (List.mem_reverse.1 there)
  cases o with
  | level other =>
    obtain rfl := Option.some.inj given
    exact good
  | interactive long => cases given
  | file long path => cases given

theorem checkFile_options : checkFile s ((FullOption.lastPath? options).map .text)
    = .ok ((FullOption.lastPath? options).map FilePath.parse) := by
  cases last : FullOption.lastPath? options with
  | none => rfl
  | some path => exact if_pos (isFile_of_lastPath valid last)

theorem checkLevel_options : ∃ level?,
    checkLevel ((FullOption.lastLevel? options).map fun name => .text (Text.upperCase name)) = .ok level? ∧
      level?.map Level.name = (FullOption.lastLevel? options).map Text.upperCase := by
  cases last : FullOption.lastLevel? options with
  | none => exact ⟨none, rfl, rfl⟩
  | some name =>
    obtain ⟨l, named, same⟩ := exists_level_of_lastLevel valid last
    refine ⟨some l, ?_, congrArg some same.symm⟩
    rw [Option.map_some, same]
    exact checkLevel_of_name named

/-- A path that leads to a file can be followed. -/
theorem fileFault_options {a : Arguments} (file : a.file? = (FullOption.lastPath? options).map .text) :
    fileFault? s a = none := by
  rw [fileFault?, file]
  cases last : FullOption.lastPath? options with
  | none => rfl
  | some path =>
    have there := isFile_of_lastPath valid last
    show s.unknowable? (FilePath.parse path) = none
    unfold FileStore.isFile at there
    unfold FileStore.unknowable?
    cases opened : s.open? (FilePath.parse path) with
    | ok e => rfl
    | error f =>
      rw [opened] at there
      cases there

omit valid in
/-- The expressions are what follows the double dash, even if that is another one. -/
theorem expressions_options (xs : List Text) : ({ Arguments.ofOptions options with
    row? := some (doubleDash :: xs) } : Arguments).expressions = xs := by
  rw [Arguments.expressions, Option.getD_some, List.erase_cons_head]

theorem check_options (xs : List Text) : ∃ level?,
    level?.map Level.name = (FullOption.lastLevel? options).map Text.upperCase ∧
    check s { Arguments.ofOptions options with row? := some (doubleDash :: xs) }
      = if xs = [] ∧ FullOption.lastPath? options = none ∧ options.any FullOption.isInteractive = false
        then .error .nothingToDo
        else .ok ⟨xs, (FullOption.lastPath? options).map FilePath.parse,
          options.any FullOption.isInteractive, level?⟩ := by
  obtain ⟨level?, level, named⟩ := checkLevel_options valid
  refine ⟨level?, named, ?_⟩
  unfold check
  rw [expressions_options]
  simp only [Arguments.ofOptions, checkFile_options valid, level]
  simp [and_assoc]

/-- Options that are given in full, in any number and order, and after a double dash any texts
whatsoever.  The command line is refused exactly if it has no texts, no path and no flag for a
session.  Otherwise the expressions of the settings are the texts, one by one, the file is at the
last path, there is a session if there is a flag for it, and the level is the last that is named, in
upper case. -/
theorem parse_options_separated (xs : List Text) :
    let arguments := options.flatMap FullOption.arguments ++ doubleDash :: xs
    let idle := xs = [] ∧ FullOption.lastPath? options = none ∧
      options.any FullOption.isInteractive = false
    (parse s arguments = .error (.ends (.usage .nothingToDo)) ↔ idle) ∧
    (¬ idle → ∃ settings, parse s arguments = .ok settings ∧ settings.expressions = xs ∧
      settings.file? = (FullOption.lastPath? options).map FilePath.parse ∧
      settings.interactive = options.any FullOption.isInteractive ∧
      settings.level?.map Level.name = (FullOption.lastLevel? options).map Text.upperCase) := by
  intro arguments idle
  obtain ⟨level?, named, checked⟩ := check_options valid xs
  have taken := Arguments.parse_options valid xs
  have known := fileFault_options valid
    (a := { Arguments.ofOptions options with row? := some (doubleDash :: xs) }) rfl
  by_cases nothing : idle
  · rw [if_pos nothing] at checked
    have refused : parse s arguments = .error (.ends (.usage .nothingToDo)) := by
      simp only [parse, arguments, taken, known, checked]
    exact ⟨iff_of_true refused nothing, fun busy => absurd nothing busy⟩
  · rw [if_neg nothing] at checked
    have settled : parse s arguments = .ok ⟨xs, (FullOption.lastPath? options).map FilePath.parse,
        options.any FullOption.isInteractive, level?⟩ := by
      simp only [parse, arguments, taken, known, checked]
    exact ⟨iff_of_false (by simp [settled]) nothing, fun _ => ⟨_, settled, rfl, rfl, rfl, named⟩⟩

end

/-- Two files, of which the second counts, and texts that look like options or like the double dash;
then a level and nothing else. -/
theorem parse_options_separated_odd :
    let s : FileStore := ⟨[(FilePath.parse "a.txt".toList, .file []), (FilePath.parse "b c".toList, .file [])]⟩
    let options := [FullOption.file true "a.txt".toList, .level "dEbug".toList, .file false "b c".toList,
      .interactive true]
    let xs := [doubleDash, "-f".toList, [], "--log-level".toList]
    (∀ o ∈ options, o.Valid s) ∧
      parse s (options.flatMap FullOption.arguments ++ doubleDash :: xs)
        = .ok ⟨xs, some (FilePath.parse "b c".toList), true, some .debug⟩ ∧
      parse s ("--log-level".toList :: "dEbug".toList :: doubleDash :: [])
        = .error (.ends (.usage .nothingToDo)) := by
  intro s options xs
  have valid : ∀ o ∈ options, o.Valid s := by decide
  obtain ⟨-, settle⟩ := parse_options_separated valid xs
  obtain ⟨⟨_, _, _, level?⟩, parsed, rfl, rfl, rfl, named⟩ := settle (by decide)
  have debug : level? = some .debug :=
    Option.map_injective Level.name_injective (named.trans (by decide))
  have alone : ∀ o ∈ [FullOption.level "dEbug".toList], o.Valid s := by decide
  have refused := (parse_options_separated alone []).1.2 ⟨rfl, rfl, rfl⟩
  exact ⟨valid, debug ▸ parsed, refused⟩

end Settings

end DeskCalc
