import DeskCalc.FilePath

/-! Archives: their formats, the members that they list, and the member that holds the expressions.
How the bytes of an archive spell its members is not told here; that is for the library of each
format. -/

namespace DeskCalc

inductive ArchiveFormat where
  | zip
  | tarXz
  | sevenZip
  deriving DecidableEq, Repr

/-- What a member of an archive is.  An unreadable file is listed but cannot be unpacked, because it is
encrypted, compressed in an unknown way, or damaged. -/
inductive Content where
  | file (bytes : List UInt8)
  | directory
  | unreadable
  deriving DecidableEq

structure Member where
  name : Text
  content : Content
  deriving DecidableEq

def Member.isFile (m : Member) : Bool := m.content != .directory

def textEnding : Text := ".txt".toList

def isTextName (name : Text) : Bool := textEnding.isSuffixOf name

namespace ArchiveFormat

def name : ArchiveFormat → Text
  | zip => "zip".toList
  | tarXz => "tar.xz".toList
  | sevenZip => "7z".toList

/-- Whether a name fits the fixed field that a tar archive has for names. -/
def fitsField (name : Text) : Bool := name.length ≤ 100 && name.all (·.toNat < 0x80)

/-- The name under which a format lists a member.  A zip archive marks a directory by a slash, and its
names end before the first NUL.  So do names in the fixed field of a tar archive; any other name is kept
whole there but for the slashes at its end.  A 7z archive lists names as they are. -/
def listedName : ArchiveFormat → Member → Text
  | zip, m => (if m.isFile then m.name else m.name ++ ['/']).takeWhile (· ≠ '\x00')
  | tarXz, m =>
    if fitsField m.name then m.name.takeWhile (· ≠ '\x00') else Text.dropEnd (· = '/') m.name
  | sevenZip, m => m.name

/-- Whether a format lists a member as a text file.  A tar archive knows its directories. -/
def listsText (format : ArchiveFormat) (m : Member) : Bool :=
  isTextName (format.listedName m) && (format != tarXz || m.isFile)

end ArchiveFormat

/-- The member of an archive that is read: the first one that is listed as a text file.  Of several zip
members with its name the last one counts. -/
def chosenMember (format : ArchiveFormat) (members : List Member) : Option Member :=
  match members.find? format.listsText with
  | none => none
  | some m =>
    if format = .zip then
      members.reverse.find? fun other => format.listedName other == format.listedName m
    else some m

theorem mem_of_chosenMember {format : ArchiveFormat} {members : List Member} {m : Member}
    (chosen : chosenMember format members = some m) : m ∈ members := by
  unfold chosenMember at chosen
  split at chosen
  · cases chosen
  · next first found =>
    split at chosen
    · simpa using List.mem_of_find?_eq_some chosen
    · cases chosen
      exact List.mem_of_find?_eq_some found

end DeskCalc
