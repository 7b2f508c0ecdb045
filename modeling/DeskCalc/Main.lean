import DeskCalc.Program

/-! The command line.  The file that the arguments name is read, the program is run on it and on what
is typed, and its outputs and its results file are written.  No libraries for archives come with it:
it knows no bytes that are an archive, so that a file that is named like one breaks the program off.
With libraries, the host below is where they go. -/

namespace DeskCalc

private def textOf (s : String) : Text := s.toList

private def stringOf (t : Text) : String := String.ofList t

private def host : Host := .usual fun _ _ => none

/-- A store with a directory for temporary files. -/
private def emptyStore : FileStore := ⟨[(⟨['/'], host.temporary⟩, .directory)]⟩

/-- A store of the file that the arguments name, if it is there.  It is kept under the path that its
path leads to, and as it is spelt, so that the directories on its way are there. -/
private def loadStore (arguments : List Text) : IO FileStore := do
  let path? := match Arguments.parse arguments with
    | .ok a => match a.file? with
      | some (.text t) => some (FilePath.parse t)
      | _ => none
    | .error _ => none
  match path? with
  | none => return emptyStore
  | some path =>
    let file := stringOf path.toText
    try
      let bytes ← IO.FS.readBinFile file
      let spelt : FileStore := ⟨(path, .file bytes.toList) :: emptyStore.entries⟩
      match spelt.resolve path with
      | .ok plain => return ⟨(plain, .file bytes.toList) :: spelt.entries⟩
      | .error _ => return spelt
    catch _ => return emptyStore

private def saveChanges (before after : FileStore) : IO Unit := do
  for (path, entry) in after.changes before do
    match entry with
    | .file bytes => IO.FS.writeBinFile (stringOf path.toText) (ByteArray.mk bytes.toArray)
    | .directory => pure ()

private def showRecords (records : List Record) : IO Unit := do
  for r in records do
    IO.eprintln (stringOf r.line)

/-- The journal of the environment, with the records of setting it up. -/
private def openJournal : IO (Journal × List Record) := do
  let name? ← IO.getEnv (stringOf Journal.variableName)
  return ({ Journal.start with requested := name?.map textOf } : Journal).setUp

/-- What is typed, if the arguments ask for a session. -/
private def readInput (store : FileStore) (arguments : List Text) : IO Text := do
  match Settings.parse store arguments with
  | .ok settings =>
    if settings.interactive then
      let stdin ← IO.getStdin
      return textOf (← stdin.readToEnd)
    else return []
  | .error _ => return []

end DeskCalc

open DeskCalc in
def main (arguments : List String) : IO UInt32 := do
  let arguments := arguments.map String.toList
  let (journal, opening) ← openJournal
  showRecords (journal.shown opening)
  let store ← loadStore arguments
  let input ← readInput store arguments
  match Program.run host journal store input arguments with
  | .ok report =>
    showRecords report.records
    saveChanges store report.store
    IO.print (String.ofList report.output)
    IO.eprint (String.ofList report.errorOutput)
    return UInt32.ofNat report.status
  | .error (_, records) =>
    showRecords records
    return 1
