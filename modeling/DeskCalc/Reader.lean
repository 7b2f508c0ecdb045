import DeskCalc.Host
import DeskCalc.Journal
import DeskCalc.Text.Encoding
import DeskCalc.Text.Characters

/-! Reading a file of expressions: a text file as it is, or the text member of an archive.  The
member is unpacked into a temporary directory of the store, read from there, and taken away with the
directory.  A member whose name has a root is read where that name says, and not where it was
unpacked. -/

namespace DeskCalc

inductive ReadError where
  | unsupportedFormat (suffix : Text)
  | noTextMember (format : ArchiveFormat)
  | corruptArchive (format : ArchiveFormat)
  | unreadableMember (format : ArchiveFormat)
  | outsideDirectory (format : ArchiveFormat)
  | undecodable (e : DecodeError)
  | unknownEncoding (name : Text)
  | nulInEncoding
  | file (fault : FileFault)
  deriving DecidableEq

namespace ReadError

def message? : ReadError → Option Text
  | unsupportedFormat suffix => some ("📄❌ Unsupported archive format: ".toList ++ suffix)
  | noTextMember format =>
    some ("📄❌ No .txt file found in ".toList ++ format.name ++ " archive".toList)
  | corruptArchive _ | unreadableMember _ | outsideDirectory _ => none
  | undecodable e => some e.message
  | unknownEncoding name => some ("unknown encoding: ".toList ++ name)
  | nulInEncoding => some "embedded null character".toList
  | file fault => fault.message?

/-- The errors that the program reports and goes on after: an archive that is not supported or has no
text, and bytes that are no text. -/
def isReported : ReadError → Bool
  | unsupportedFormat _ | noTextMember _ | undecodable _ => true
  | corruptArchive _ | unreadableMember _ | outsideDirectory _ | unknownEncoding _ | nulInEncoding
  | file _ => false

end ReadError

/-- What a fault in unpacking a member means for reading its archive. -/
def UnpackFault.readError (format : ArchiveFormat) : UnpackFault → ReadError
  | unreadable => .unreadableMember format
  | outside => .outsideDirectory format
  | file fault => .file fault

/-- The name of the encoding that files are read in unless another is given. -/
def defaultEncoding : Text := Encoding.utf8.name

/-- The format of the archive at a path: that of its last suffix, or of its last two. -/
def ArchiveFormat.ofPath? (p : FilePath) : Option ArchiveFormat :=
  if p.suffix = ".zip".toList then some .zip
  else if p.suffixes.drop (p.suffixes.length - 2) = [".tar".toList, ".xz".toList] then some .tarXz
  else if p.suffix = ".7z".toList then some .sevenZip
  else none

/-- The text of bytes in the encoding of a name, with line feeds for all line ends. -/
def decodeNamed (encoding : Text) (bytes : List UInt8) : Except ReadError Text :=
  match Encoding.ofName? encoding with
  | none => .error (.unknownEncoding encoding)
  | some e =>
    match e.decode bytes with
    | .ok t => .ok (Text.unifyLineEnds t)
    | .error err => .error (.undecodable err)

/-- The text of the file at a path, whatever its name. -/
def readText (s : FileStore) (encoding : Text) (p : FilePath) : Except ReadError Text :=
  if encoding.contains '\x00' then .error .nulInEncoding
  else match s.open? p with
    | .error f => .error (.file f)
    | .ok (.file bytes) => decodeNamed encoding bytes
    | .ok .directory => .error (.file .isDirectory)

/-- What bytes give when they are read as a text. -/
def readBytes (encoding : Text) (bytes : List UInt8) : Except ReadError Text :=
  if encoding.contains '\x00' then .error .nulInEncoding else decodeNamed encoding bytes

theorem readText_of_file {s : FileStore} {encoding : Text} {p : FilePath} {bytes : List UInt8}
    (there : s.open? p = .ok (.file bytes)) : readText s encoding p = readBytes encoding bytes := by
  simp only [readText, readBytes, there]

/-- Unpacks a member of an archive into a directory and reads it from there. -/
def readMember (h : Host) (format : ArchiveFormat) (encoding : Text) (t : FilePath) (m : Member) :
    Disk ReadError Text := do
  ExceptT.adapt (·.readError format) (h.unpack format t m)
  let found := t.join (FilePath.parse (format.listedName m))
  ofExcept (readText (← get) encoding found)

/-- The text of the archive at a path.  Its bytes have to be an archive of the format that its name
tells. -/
def readArchive (h : Host) (format : ArchiveFormat) (encoding : Text) (p t : FilePath) :
    Disk ReadError Text := do
  match (← get).open? p with
  | .error f => throw (.file f)
  | .ok .directory => throw (.file .isDirectory)
  | .ok (.file bytes) =>
    match h.members? format bytes with
    | none => throw (.corruptArchive format)
    | some members =>
      match chosenMember format members with
      | none => throw (.noTextMember format)
      | some m => readMember h format encoding t m

/-- Reads the file of expressions at a path. -/
def readFrom (h : Host) (encoding : Text) (p : FilePath) : Disk ReadError Text := do
  if p.suffix = textEnding then ofExcept (readText (← get) encoding p)
  else h.inTemporary .file fun t =>
    match ArchiveFormat.ofPath? p with
    | none => throw (.unsupportedFormat p.suffix)
    | some format => readArchive h format encoding p t

/-- The text of the file of expressions at a path. -/
def readSource (h : Host) (s : FileStore) (encoding : Text) (p : FilePath) : Except ReadError Text :=
  ((readFrom h encoding p).on s).1

/-- The records of reading: a file that is no text file is unpacked. -/
def readRecords (p : FilePath) : List Record :=
  if p.suffix = textEnding then []
  else [⟨.info, "📦 Extracting expressions from ".toList ++ p.name⟩]

end DeskCalc
