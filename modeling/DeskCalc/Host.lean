import DeskCalc.Extraction.Confined

/-! What the program finds on the machine that it runs on, apart from the files: the libraries that
read archives, and a place for temporary files.  A library tells which members the bytes of an
archive spell, if they spell any.  Zip and tar archives are unpacked here; the library for 7z
archives unpacks by itself, and all that is known of it is that it stays in the directory that it is
given.

A temporary directory is new: its name is drawn until nothing is there.  Names are drawn at random
and late, so that no archive that lies in the store tells them. -/

namespace DeskCalc

def ArchiveFormat.all : List ArchiveFormat := [.zip, .tarXz, .sevenZip]

/-- Whether some archive of a store lists a member whose name leads through the part `name`. -/
def FileStore.tells (members? : ArchiveFormat → List UInt8 → Option (List Member)) (s : FileStore)
    (name : Text) : Bool :=
  s.entries.any fun e => match e.2 with
    | .directory => false
    | .file bytes => ArchiveFormat.all.any fun format =>
      ((members? format bytes).getD []).any fun m =>
        (FilePath.parse (format.listedName m)).parts.contains name

theorem FileStore.not_mem_of_tells {members? : ArchiveFormat → List UInt8 → Option (List Member)}
    {s : FileStore} {name : Text} (untold : s.tells members? name = false) {p : FilePath}
    {bytes : List UInt8} (there : (p, .file bytes) ∈ s.entries) {format : ArchiveFormat}
    {members : List Member} (listed : members? format bytes = some members) {m : Member}
    (hm : m ∈ members) : name ∉ (FilePath.parse (format.listedName m)).parts := by
  intro told
  have known : format ∈ ArchiveFormat.all := by cases format <;> decide
  rw [← Bool.not_eq_true] at untold
  refine untold (List.any_eq_true.2 ⟨_, there, List.any_eq_true.2 ⟨format, known, ?_⟩⟩)
  rw [listed, Option.getD_some]
  exact List.any_eq_true.2 ⟨m, hm, by simpa using told⟩

structure Host where
  /-- The members of an archive of a format, in order, if the bytes are one. -/
  members? : ArchiveFormat → List UInt8 → Option (List Member)
  /-- Unpacks a member of a 7z archive into a directory. -/
  unpackSevenZip : FilePath → Member → Disk UnpackFault Unit
  /-- The way from the root to the directory for temporary files. -/
  temporary : List Text
  /-- The names that are tried for a temporary directory, one after another. -/
  drawn : FileStore → List Text
  /-- The library for 7z archives refuses what would come out of the directory. -/
  confined : ∀ t m, FilePath.upward ∉ t.parts → Disk.Confined t (unpackSevenZip t m)
  settled : FilePath.upward ∉ temporary
  drawn_down : ∀ s, FilePath.upward ∉ drawn s
  /-- Nobody can guess the name of a temporary directory. -/
  untold : ∀ s, ∀ name ∈ drawn s, s.tells members? name = false

/-- Makes a directory under the first of some names where nothing is yet. -/
def FileStore.makeFirst (s : FileStore) (base : FilePath) :
    List Text → Except FileFault (FilePath × FileStore)
  | [] => .error .alreadyThere
  | name :: rest =>
    match s.makeDirectory (base.below name) with
    | .ok s' => .ok (base.below name, s')
    | .error .alreadyThere => s.makeFirst base rest
    | .error f => .error f

namespace FileStore

variable {s s' : FileStore} {base t : FilePath}

theorem exists_name_of_makeFirst {names : List Text} (made : s.makeFirst base names = .ok (t, s')) :
    ∃ name ∈ names, t = base.below name ∧ s.makeDirectory t = .ok s' := by
  induction names with
  | nil => cases made
  | cons name rest ih =>
    unfold makeFirst at made
    split at made
    · next there =>
      cases made
      exact ⟨name, List.mem_cons_self, rfl, there⟩
    · obtain ⟨name', later, here, there⟩ := ih made
      exact ⟨name', List.mem_cons_of_mem name later, here, there⟩
    · cases made

/-- Where nothing is, nothing is removed. -/
theorem remove_of_free (free : s.isDirectory t = false) (nothing : s.get? t = none) : s.remove t = s := by
  have apart : ∀ e ∈ s.entries, (!e.1.isWithin t) = true := by
    intro e he
    rw [Bool.not_eq_true', ← Bool.not_eq_true, FilePath.isWithin_iff]
    rintro ⟨root, begins⟩
    rcases Nat.lt_or_eq_of_le begins.length_le with deeper | level
    · -- Something below the path would make it a directory.
      have below : (s.entries.any fun e => e.1.root == t.root && t.parts.isPrefixOf e.1.parts
          && t.parts.length < e.1.parts.length) = true :=
        List.any_eq_true.2 ⟨e, he, by simp [root, begins, deeper]⟩
      simp [isDirectory, below] at free
    · have nowhere : ∀ p x, (p, x) ∈ s.entries → p ≠ t := by simpa [get?] using nothing
      exact nowhere e.1 e.2 he (FilePath.ext root (begins.eq_of_length level).symm)
  simp only [remove, List.filter_eq_self.2 apart]

end FileStore

namespace Host

variable {h : Host} {s s' : FileStore} {t : FilePath}

/-- Makes a temporary directory. -/
def makeTemporary (h : Host) (s : FileStore) : Except FileFault (FilePath × FileStore) :=
  s.makeFirst ⟨['/'], h.temporary⟩ (h.drawn s)

/-- A temporary directory is where its path says, and nothing was there before. -/
theorem makeTemporary_spec (made : h.makeTemporary s = .ok (t, s')) :
    (∃ name ∈ h.drawn s, t = FilePath.below ⟨['/'], h.temporary⟩ name) ∧ FilePath.upward ∉ t.parts ∧
      s.resolve t = .ok t ∧ s.isDirectory t = false ∧ s.get? t = none ∧ s' = s.insert t .directory := by
  obtain ⟨name, drawn, here, there⟩ := FileStore.exists_name_of_makeFirst made
  have settled : FilePath.upward ∉ t.parts := by
    have down : name ≠ FilePath.upward := fun up => h.drawn_down s (up ▸ drawn)
    subst here
    simpa [FilePath.below, h.settled] using Ne.symm down
  obtain ⟨q, led, free, nothing, new⟩ := FileStore.makeDirectory_eq_ok_iff.1 there
  obtain rfl : q = t := by
    rw [FileStore.eq_collapsed_of_resolve led, FilePath.collapsed_of_plain settled]
  exact ⟨⟨name, drawn, here⟩, settled, led, free, nothing, new⟩

/-- Taking a temporary directory away again leaves what was there before. -/
theorem remove_makeTemporary (made : h.makeTemporary s = .ok (t, s')) : s'.remove t = s := by
  obtain ⟨-, -, -, free, nothing, rfl⟩ := makeTemporary_spec made
  rw [FileStore.remove_insert (by simpa [FilePath.descend] using FilePath.isWithin_descend t []),
    FileStore.remove_of_free free nothing]

/-- Unpacks a member into a directory, under the name that its archive lists. -/
def unpack (h : Host) (format : ArchiveFormat) (t : FilePath) (m : Member) : Disk UnpackFault Unit :=
  match format with
  | .zip => Unpack.unpackDown t (FilePath.parse (ArchiveFormat.zip.listedName m)).downward m.content
  | .tarXz => Unpack.unpackTar t (ArchiveFormat.tarXz.listedName m) m.content
  | .sevenZip => h.unpackSevenZip t m

/-- Unpacking stays in a directory that the name of the member does not tell. -/
theorem confined_unpack (format : ArchiveFormat) {m : Member} {base : FilePath} {own : Text}
    (settled : FilePath.upward ∉ (base.below own).parts)
    (untold : own ∉ (FilePath.parse (format.listedName m)).parts) :
    Disk.Confined (base.below own) (h.unpack format (base.below own) m) := by
  cases format with
  | zip =>
    have down : FilePath.upward ∉ (FilePath.parse (ArchiveFormat.zip.listedName m)).downward := by
      simp [FilePath.downward]
    exact Unpack.confined_unpackDown (FilePath.staysAlong_of_plain settled down) m.content
  | tarXz => exact Unpack.confined_unpackTar untold m.content
  | sevenZip => exact h.confined _ m settled

/-- Does something in a temporary directory, which is taken away afterwards. -/
def inTemporary {ε α : Type} (h : Host) (fault : FileFault → ε) (m : FilePath → Disk ε α) : Disk ε α :=
  fun s => match h.makeTemporary s with
    | .error f => (.error (fault f), s)
    | .ok (t, s') => (((m t).on s').1, ((m t).on s').2.remove t)

theorem on_inTemporary {ε α : Type} {fault : FileFault → ε} {m : FilePath → Disk ε α}
    (made : h.makeTemporary s = .ok (t, s')) :
    (h.inTemporary fault m).on s = (((m t).on s').1, ((m t).on s').2.remove t) := by
  simp only [Disk.on, inTemporary, ExceptT.run, StateT.run, made]

theorem on_inTemporary_full {ε α : Type} {fault : FileFault → ε} {m : FilePath → Disk ε α} {f : FileFault}
    (full : h.makeTemporary s = .error f) : (h.inTemporary fault m).on s = (.error (fault f), s) := by
  simp only [Disk.on, inTemporary, ExceptT.run, StateT.run, full]

/-- The names of temporary directories on a host of the usual kind. -/
def usualNames : List Text :=
  "abcdefghijklmnopqrstuvwxyz".toList.map fun c => "tmp".toList ++ List.replicate 8 c

/-- A host of the usual kind, with libraries that read archives.  A member of a 7z archive comes out
where its name leads, unless that is outside. -/
def usual (members? : ArchiveFormat → List UInt8 → Option (List Member)) : Host where
  members?
  unpackSevenZip t m := Unpack.unpackCollapsed t m.name m.content
  temporary := ["tmp".toList]
  drawn s := usualNames.filter fun name => !s.tells members? name
  confined _ m settled := Unpack.confined_unpackCollapsed settled m.name m.content
  settled := by decide
  drawn_down _ up := absurd (List.mem_filter.1 up).1 (by decide)
  untold _ _ drawn := by simpa using (List.mem_filter.1 drawn).2

end Host

end DeskCalc
