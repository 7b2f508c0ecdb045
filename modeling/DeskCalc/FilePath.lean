import DeskCalc.Text.Quoted

/-! Paths of files.  A path is a root, which is empty for a relative path, and parts between slashes.
Empty parts and single dots do not count.  The name is the last part, and its suffixes begin at the
dots that follow its first character which is no dot. -/

namespace DeskCalc

/-- A path: `root` is empty, `/` or `//`. -/
@[ext]
structure FilePath where
  root : Text
  parts : List Text
  deriving DecidableEq

namespace FilePath

/-- The path that a text spells.  Two slashes at the start make a root of their own, any other number
makes one. -/
def parse (t : Text) : FilePath where
  root := match t with
    | '/' :: '/' :: '/' :: _ => ['/']
    | '/' :: '/' :: _ => ['/', '/']
    | '/' :: _ => ['/']
    | _ => []
  parts := (Text.cut '/' t).filter fun part => part ≠ [] && part ≠ ['.']

def toText (p : FilePath) : Text :=
  if p.root = [] && p.parts = [] then ['.'] else p.root ++ Text.join ['/'] p.parts

/-- The part that leads one level up. -/
def upward : Text := ['.', '.']

/-- Whether a path leads up only, so that a step up cannot take back its last part. -/
def isAscent (p : FilePath) : Bool := p.root.isEmpty && p.parts.all (· == upward)

/-- The path of a part below a path. -/
def below (p : FilePath) (part : Text) : FilePath := { p with parts := p.parts ++ [part] }

/-- The path after one more part: a step up takes back the last part, if there is one to take back. -/
def step (p : FilePath) (part : Text) : FilePath :=
  if part = upward && !p.isAscent then { p with parts := p.parts.dropLast } else p.below part

/-- The path with every step up taken that can be. -/
def collapsed (p : FilePath) : FilePath := p.parts.foldl step ⟨p.root, []⟩

/-- The parts of a path that do not lead up. -/
def downward (p : FilePath) : List Text := p.parts.filter (· ≠ upward)

/-- The path of several parts below a path. -/
def descend (p : FilePath) (parts : List Text) : FilePath := { p with parts := p.parts ++ parts }

/-- The path that a second path is from a directory.  With a root it is the same from everywhere. -/
def join (p q : FilePath) : FilePath := if q.root.isEmpty then p.descend q.parts else q

/-- Whether a path is `t` or lies below it. -/
def isWithin (p t : FilePath) : Bool := p.root == t.root && t.parts.isPrefixOf p.parts

/-- Whether a path leads to something below the directory where it starts. -/
def staysBelow (p : FilePath) : Bool := p.root.isEmpty && !p.collapsed.parts.contains upward

def name (p : FilePath) : Text := p.parts.getLast?.getD []

/-- The suffixes of a name, each with its dot.  Dots at the start begin none, and a name that ends
with a dot has none. -/
def suffixesOf (name : Text) : List Text :=
  if name.getLast? = some '.' then []
  else (Text.cut '.' (name.dropWhile (· = '.'))).tail.map ('.' :: ·)

def suffixes (p : FilePath) : List Text := suffixesOf p.name

/-- The last suffix of a name: from its last dot on, unless that is the first or last character. -/
def suffixOf (name : Text) : Text :=
  let extension := (name.reverse.takeWhile (· ≠ '.')).reverse
  if extension = [] || name.length ≤ extension.length + 1 then [] else '.' :: extension

def suffix (p : FilePath) : Text := suffixOf p.name

/-- The path has no name. -/
structure EmptyName where
  path : FilePath

def EmptyName.message (e : EmptyName) : Text :=
  "PosixPath(".toList ++ Text.quoted e.path.toText ++ ") has an empty name".toList

def resultsEnding : Text := "_results.txt".toList

/-- The name of the results file of a name: the dots of its suffixes become underscores, and an ending
follows. -/
def resultsName (name : Text) : Text :=
  let ending := (suffixesOf name).flatten
  name.take (name.length - ending.length)
    ++ ending.map (fun c => if c = '.' then '_' else c) ++ resultsEnding

/-- The results file of an input file, beside it. -/
def results (p : FilePath) : Except EmptyName FilePath :=
  if p.name = [] then .error ⟨p⟩
  else .ok { p with parts := p.parts.dropLast ++ [resultsName p.name] }

end FilePath

end DeskCalc
