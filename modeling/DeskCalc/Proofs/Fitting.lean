import DeskCalc.Proofs.FileMode

/-! Files that the program can make something of.  A file that is named like an archive has to be one
of that format, and the member that is chosen from it has to be a file that can be unpacked, under a
name that is not too long in a temporary directory; for that there has to be room.  Then whatever
keeps the program from reading the file is reported, and the run ends with a status; any other file
breaks the program off. -/

namespace DeskCalc

section

variable {h : Host} {s : FileStore} {p : FilePath} {bytes : List UInt8}
  (library : ArchiveFormat.ofPath? p = some .sevenZip → h.UnpacksSevenZip)
  (there : s.open? p = .ok (.file bytes))
  (plain : ∀ format members, ArchiveFormat.ofPath? p = some format →
    h.members? format bytes = some members → ∀ m ∈ members, PlainName m.name)
include library there plain

end

namespace Program

end Program

end DeskCalc
