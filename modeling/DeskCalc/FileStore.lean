import DeskCalc.FilePath

/-! A store of files: what stands at each path.  A directory is there when it was put there or when
something lies below it, and a path is followed part by part through directories that are there.  Two
dots lead one level up; at the start of a relative path they stay, and stand for a directory.  Names
and paths have a greatest length.

A store keeps no links, permissions or times, and nobody else changes it.  Relative paths and paths
with a root are kept apart: it is not told which path with a root leads to the directory where
relative paths start. -/

namespace DeskCalc

/-- What a path leads to.  An archive is a file like any other: what it holds is told by its bytes. -/
inductive Entry where
  | file (bytes : List UInt8)
  | directory
  deriving DecidableEq

/-- Why a path could not be opened, or nothing put there. -/
inductive FileFault where
  | notFound
  | isDirectory
  | notDirectory
  | alreadyThere
  | nameTooLong
  | nulInPath
  deriving DecidableEq

def FileFault.message? : FileFault → Option Text
  | nulInPath => some "embedded null byte".toList
  | _ => none

def longestPart : Nat := 255

def longestPath : Nat := 4095

/-- The entries with their paths, the latest first. -/
structure FileStore where
  entries : List (FilePath × Entry)

namespace FileStore

def empty : FileStore := ⟨[]⟩

/-- The entry at a path that is spelt as it is kept. -/
def get? (s : FileStore) (p : FilePath) : Option Entry :=
  (s.entries.find? (·.1 == p)).map (·.2)

def isDirectory (s : FileStore) (p : FilePath) : Bool :=
  p.parts.all (· == FilePath.upward) || s.get? p == some .directory
    || s.entries.any fun e =>
      e.1.root == p.root && p.parts.isPrefixOf e.1.parts && p.parts.length < e.1.parts.length

/-- Follows parts from a path. -/
def follow (s : FileStore) : FilePath → List Text → Except FileFault FilePath
  | p, [] => .ok p
  | p, part :: rest =>
    if !s.isDirectory p then
      .error (if (s.get? p).isSome then .notDirectory else .notFound)
    else if longestPart < Text.byteCount part then .error .nameTooLong
    else s.follow (p.step part) rest

theorem follow_append (s : FileStore) (p : FilePath) (a b : List Text) :
    s.follow p (a ++ b) = match s.follow p a with
      | .ok m => s.follow m b
      | .error f => .error f := by
  induction a generalizing p with
  | nil => rfl
  | cons part rest ih =>
    rw [List.cons_append, follow, follow]
    split
    · rfl
    split
    · rfl
    · exact ih _

/-- The path that a path leads to, with no step up but at the start of a relative path. -/
def resolve (s : FileStore) (p : FilePath) : Except FileFault FilePath :=
  if p.toText.contains '\x00' then .error .nulInPath
  else if longestPath < Text.byteCount p.toText then .error .nameTooLong
  else s.follow ⟨p.root, []⟩ p.parts

def open? (s : FileStore) (p : FilePath) : Except FileFault Entry :=
  match s.resolve p with
  | .error f => .error f
  | .ok q =>
    if s.isDirectory q then .error .isDirectory
    else match s.get? q with
      | some e => .ok e
      | none => .error .notFound

def isFile (s : FileStore) (p : FilePath) : Bool := (s.open? p).isOk

/-- Why it cannot be told whether a path leads to a file: it is too long to be followed. -/
def unknowable? (s : FileStore) (p : FilePath) : Option FileFault :=
  match s.open? p with
  | .error .nameTooLong => some .nameTooLong
  | _ => none

def leadsToDirectory (s : FileStore) (p : FilePath) : Bool :=
  match s.resolve p with
  | .ok q => s.isDirectory q
  | .error _ => false

/-- The store with an entry at a path that is spelt as it is kept, in place of the one that was
there. -/
def insert (s : FileStore) (p : FilePath) (e : Entry) : FileStore :=
  ⟨(p, e) :: s.entries.filter (·.1 != p)⟩

/-- Puts an entry at a path, in place of the file that is there. -/
def put (s : FileStore) (p : FilePath) (e : Entry) : Except FileFault FileStore :=
  match s.resolve p with
  | .error f => .error f
  | .ok q =>
    if s.isDirectory q then .error .isDirectory
    else .ok (s.insert q e)

def write (s : FileStore) (p : FilePath) (bytes : List UInt8) : Except FileFault FileStore :=
  s.put p (.file bytes)

/-- Makes a directory at a path where nothing is yet. -/
def makeDirectory (s : FileStore) (p : FilePath) : Except FileFault FileStore :=
  match s.resolve p with
  | .error f => .error f
  | .ok q =>
    if s.isDirectory q || (s.get? q).isSome then .error .alreadyThere
    else .ok (s.insert q .directory)

/-- The store without what is at a path and below it. -/
def remove (s : FileStore) (p : FilePath) : FileStore := ⟨s.entries.filter fun e => !e.1.isWithin p⟩

/-- The entries of the store that `before` does not have. -/
def changes (s before : FileStore) : List (FilePath × Entry) :=
  s.entries.filter fun e => before.get? e.1 != some e.2

end FileStore

end DeskCalc
