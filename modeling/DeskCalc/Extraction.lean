import DeskCalc.Archive
import DeskCalc.FileStore

/-! Extraction: a member of an archive is unpacked into a directory of the store, under the name that
the archive lists.  A name that leads straight down comes out where it says in every format.  With
steps up each format has a way of its own: a zip archive leaves them out, and a tar archive makes the
directories that a name leads through one by one, once the name as a whole stays in the directory.
What was made before unpacking breaks off stays where it is. -/

namespace DeskCalc

/-- Steps on a store that may break off.  The store outlives a fault. -/
abbrev Disk (ε : Type) := ExceptT ε (StateM FileStore)

/-- How steps end, and the store that they leave. -/
def Disk.on {ε α : Type} (m : Disk ε α) (s : FileStore) : Except ε α × FileStore := m.run.run s

/-- Why a member could not be unpacked: its content cannot be had, its name leads out of the
directory, or the file system refuses. -/
inductive UnpackFault where
  | unreadable
  | outside
  | file (fault : FileFault)
  deriving DecidableEq

namespace Unpack

/-- Changes the store, unless the file system refuses. -/
def change (f : FileStore → Except FileFault FileStore) : Disk UnpackFault Unit := do
  match f (← get) with
  | .ok s => set s
  | .error fault => throw (.file fault)

def makeDirectory (p : FilePath) : Disk UnpackFault Unit := change (·.makeDirectory p)

def put (p : FilePath) (e : Entry) : Disk UnpackFault Unit := change (·.put p e)

/-- Makes a directory where nothing is yet, and leaves what is there already. -/
def ensureDirectory (p : FilePath) : Disk UnpackFault Unit := do
  match (← get).makeDirectory p with
  | .ok s => set s
  | .error .alreadyThere => return
  | .error fault => throw (.file fault)

/-- Makes the directories that parts lead through from a path. -/
def makeWay (p : FilePath) : List Text → Disk UnpackFault Unit
  | [] => return
  | part :: rest => do
    ensureDirectory (p.below part)
    makeWay (p.below part) rest

/-- Puts the content of a member at a path. -/
def putContent (p : FilePath) : Content → Disk UnpackFault Unit
  | .file bytes => put p (.file bytes)
  | .directory => ensureDirectory p
  | .unreadable => throw .unreadable

/-- Unpacks content along parts that are taken one below the other, with the directories on the way. -/
def unpackDown (t : FilePath) (parts : List Text) (content : Content) : Disk UnpackFault Unit := do
  makeWay t parts.dropLast
  putContent (t.descend parts) content

/-- Whether the last directory that a name leads through is a dot, which stands for no step. -/
def endsInPlace (name : Text) : Bool :=
  ((Text.cut '/' name).filter (· ≠ [])).dropLast.getLast? == some ['.']

/-- Makes the directories that a tar archive makes for a name.  The last of them must be new, unless
it is there from the start or its name ends with a dot. -/
def tarDirectories (t : FilePath) (name : Text) : Disk UnpackFault Unit := do
  let way := (FilePath.parse name).parts.dropLast
  if (← get).leadsToDirectory (t.descend way) then return
  else if endsInPlace name then makeWay t way
  else do
    makeWay t way.dropLast
    makeDirectory (t.descend way)

/-- Unpacks a member of a tar archive.  Slashes at the start of its name are left out, and a name
that leads out of the directory is refused before anything is made. -/
def unpackTar (t : FilePath) (name : Text) (content : Content) : Disk UnpackFault Unit :=
  let target := t.descend (FilePath.parse name).parts
  if name.contains '\x00' then throw (.file .nulInPath)
  else if !target.collapsed.isWithin t then throw .outside
  else do
    tarDirectories t name
    putContent target content

/-- Unpacks content under a name whose steps up are taken before anything is made.  A name that leads
out of the directory is refused. -/
def unpackCollapsed (t : FilePath) (name : Text) (content : Content) : Disk UnpackFault Unit :=
  let p := FilePath.parse name
  if !p.staysBelow then throw .outside
  else unpackDown t p.collapsed.parts content

end Unpack

end DeskCalc
