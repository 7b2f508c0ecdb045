import DeskCalc.Proofs.Content
import DeskCalc.Reader

/-! Reading a file leaves the store as it was.  All that reading changes lies in its temporary
directory, which is new and is taken away at the end, whether the file was read or not. -/

namespace DeskCalc

namespace FileStore

variable {s s' : FileStore} {p q : FilePath} {e : Entry}

theorem mem_of_open? (opened : s.open? p = .ok e) : ∃ q, (q, e) ∈ s.entries := by
  obtain ⟨_, -, -, found⟩ := open?_eq_ok_iff.1 opened
  obtain ⟨x, hx, rfl⟩ := Option.map_eq_some_iff.1 found
  exact ⟨x.1, List.mem_of_find?_eq_some hx⟩

theorem mem_of_mem_insert_directory {bytes : List UInt8}
    (there : (q, .file bytes) ∈ (s.insert p .directory).entries) : (q, .file bytes) ∈ s.entries := by
  rcases List.mem_cons.1 there with new | old
  · cases new
  · exact (List.mem_filter.1 old).1

end FileStore

variable {h : Host} {s s' : FileStore} {t : FilePath}

theorem confined_readMember {format : ArchiveFormat} {m : Member}
    (unpacked : Disk.Confined t (h.unpack format t m)) (encoding : Text) :
    Disk.Confined t (readMember h format encoding t m) :=
  (unpacked.adapt _).bind fun _ => Disk.confined_get.bind fun _ => Disk.confined_ofExcept _

/-- An archive is unpacked in the temporary directory that was made for it, which it cannot name. -/
theorem remove_readArchive (made : h.makeTemporary s = .ok (t, s')) (format : ArchiveFormat)
    (encoding : Text) (p : FilePath) :
    ((readArchive h format encoding p t).on s').2.remove t = s'.remove t := by
  obtain ⟨⟨name, drawn, rfl⟩, settled, -, -, -, rfl⟩ := Host.makeTemporary_spec made
  rw [readArchive, Disk.on_get_bind]
  split
  · rfl
  · rfl
  · next bytes opened =>
    split
    · rfl
    · next members listed =>
      split
      · rfl
      · next m chosen =>
        obtain ⟨q, there⟩ := FileStore.mem_of_open? opened
        have untold := FileStore.not_mem_of_tells (h.untold s name drawn)
          (FileStore.mem_of_mem_insert_directory there) listed (mem_of_chosenMember chosen)
        exact confined_readMember (Host.confined_unpack format settled untold) encoding _

/-- Whatever comes of reading a file, the store is afterwards what it was before. -/
theorem store_readFrom (h : Host) (s : FileStore) (encoding : Text) (p : FilePath) :
    ((readFrom h encoding p).on s).2 = s := by
  unfold readFrom
  split
  · rw [Disk.on_get_bind, Disk.on_ofExcept]
  · cases made : h.makeTemporary s with
    | error f => rw [Host.on_inTemporary_full made]
    | ok place =>
      obtain ⟨t, s'⟩ := place
      rw [Host.on_inTemporary made, ← Host.remove_makeTemporary made]
      dsimp only
      split
      · rfl
      · exact remove_readArchive made _ encoding p

theorem on_readFrom (h : Host) (s : FileStore) (encoding : Text) (p : FilePath) :
    (readFrom h encoding p).on s = (readSource h s encoding p, s) :=
  Prod.ext rfl (store_readFrom h s encoding p)

/-! ### What is read -/

/-- A text file is read as it is. -/
theorem readSource_of_text {p : FilePath} (suffix : p.suffix = textEnding) (h : Host) (s : FileStore)
    (encoding : Text) : readSource h s encoding p = readText s encoding p := by
  rw [readSource, readFrom, if_pos suffix, Disk.on_get_bind, Disk.on_ofExcept]

section

variable {p : FilePath} (noText : p.suffix ≠ textEnding)
include noText

/-- Any other file is read in the temporary directory, if its format is supported. -/
theorem readSource_of_made (made : h.makeTemporary s = .ok (t, s')) (encoding : Text) :
    readSource h s encoding p = match ArchiveFormat.ofPath? p with
      | none => .error (.unsupportedFormat p.suffix)
      | some format => ((readArchive h format encoding p t).on s').1 := by
  rw [readSource, readFrom, if_neg noText, Host.on_inTemporary made]
  cases ArchiveFormat.ofPath? p <;> rfl

end

end DeskCalc
