import DeskCalc.Proofs.PlainName
import DeskCalc.Proofs.Temporary

/-! Unpacking members with plain names in a new directory.  A file comes out where its name says,
with its bytes; a member that is unreadable, a directory, or too far down ends in an error that is
not reported.  Zip and tar archives are unpacked so.  That the library for 7z archives does the same
is named as what it promises, and the usual host keeps the promise. -/

namespace DeskCalc

theorem FilePath.below_descend (t : FilePath) (parts : List Text) (part : Text) :
    (t.descend parts).below part = t.descend (parts ++ [part]) := by
  simp [descend, below]

/-! ### Steps in a new directory -/

namespace Unpack

open FileStore

variable {s : FileStore} {t : FilePath} {way parts rest : List Text} {last : Text}

theorem on_ensureDirectory_below (leads : s.Leads t way) (straight : Straight t (way ++ [last])) :
    ∃ s', (ensureDirectory (t.descend (way ++ [last]))).on s = (.ok (), s')
      ∧ s'.Leads t (way ++ [last]) := by
  rw [on_ensureDirectory, leads.makeDirectory_below straight]
  exact ⟨_, rfl, leads.insert_directory (straight.plain last (by simp)).ne_upward⟩

/-- The directories of a straight way are made one below the other. -/
theorem on_makeWay_straight (leads : s.Leads t parts) (straight : Straight t (parts ++ rest)) :
    ∃ s', (makeWay (t.descend parts) rest).on s = (.ok (), s') ∧ s'.Leads t (parts ++ rest) := by
  induction rest generalizing s parts with
  | nil => exact ⟨s, rfl, by simpa using leads⟩
  | cons part rest ih =>
    rw [List.append_cons] at straight
    obtain ⟨s', made, leads'⟩ := on_ensureDirectory_below leads straight.of_append
    obtain ⟨s'', way, leads''⟩ := ih leads' straight
    refine ⟨s'', ?_, by simpa using leads''⟩
    rw [makeWay, Disk.on_bind, FilePath.below_descend, made]
    exact way

theorem on_makeWay_new (leads : s.Leads t []) (straight : Straight t way) :
    ∃ s', (makeWay t way).on s = (.ok (), s') ∧ s'.Leads t way := by
  simpa [FilePath.descend] using on_makeWay_straight leads straight

/-- A file is put where the directories lead, and is found there. -/
theorem on_put_below (leads : s.Leads t way) (straight : Straight t (way ++ [last]))
    (bytes : List UInt8) : ∃ s', (put (t.descend (way ++ [last])) (.file bytes)).on s = (.ok (), s')
      ∧ s'.open? (t.descend (way ++ [last])) = .ok (.file bytes) := by
  have done : s.put (t.descend (way ++ [last])) (.file bytes) = .ok (s.insert _ (.file bytes)) :=
    put_eq_ok_iff.2 ⟨_, leads.resolve_below straight,
      leads.isDirectory_below (straight.plain last (by simp)).ne_upward, rfl⟩
  rw [put, on_change, done]
  exact ⟨_, rfl, leads.open?_insert_below straight bytes⟩

theorem on_unpackDown_file (leads : s.Leads t []) (straight : Straight t (way ++ [last]))
    (bytes : List UInt8) :
    ∃ s', (unpackDown t (way ++ [last]) (.file bytes)).on s = (.ok (), s')
      ∧ s'.open? (t.descend (way ++ [last])) = .ok (.file bytes) := by
  obtain ⟨s', made, leads'⟩ := on_makeWay_new leads straight.of_append
  rw [unpackDown, Disk.on_bind, List.dropLast_concat, made]
  exact on_put_below leads' straight bytes

theorem open?_unpackDown_directory {s' : FileStore} (leads : s.Leads t [])
    (straight : Straight t (way ++ [last]))
    (done : (unpackDown t (way ++ [last]) .directory).on s = (.ok (), s')) :
    s'.open? (t.descend (way ++ [last])) = .error .isDirectory := by
  obtain ⟨middle, made, leads'⟩ := on_makeWay_new leads straight.of_append
  obtain ⟨made', new, leads''⟩ := on_ensureDirectory_below leads' straight
  rw [unpackDown, Disk.on_bind, List.dropLast_concat, made] at done
  obtain rfl : made' = s' := congrArg Prod.snd (new.symm.trans done)
  have there := leads''.there (way ++ [last]).length (Nat.le_refl _)
  rw [List.take_length] at there
  have led := resolve_straight leads''.rooted leads''.settled straight
    fun n hn => leads''.there n (Nat.le_of_lt hn)
  simp [open?, led, there]

theorem exists_error_unpackDown (parts : List Text) :
    ∃ f, ((unpackDown t parts .unreadable).on s).1 = .error f := by
  rw [unpackDown, Disk.on_bind]
  split
  · exact ⟨.unreadable, rfl⟩
  · next f _ _ => exact ⟨f, rfl⟩

theorem leadsToDirectory_new (leads : s.Leads t []) {part : Text}
    (plain : ∀ p ∈ part :: rest, PlainPart p) :
    s.leadsToDirectory (t.descend (part :: rest)) = false := by
  unfold leadsToDirectory
  split
  · next q led =>
    have settled := eq_collapsed_of_resolve leads.settled
    obtain rfl : q = t.descend (part :: rest) := by
      rw [eq_collapsed_of_resolve led, FilePath.collapsed_descend, ← settled,
        FilePath.foldl_step_of_plain (upward_not_mem_of_plain plain)]
    exact leads.isDirectory_deeper (by simp) ⟨part, by simp, (plain part (by simp)).ne_upward⟩
  · rfl

/-- A tar archive makes the directories of a plain name. -/
theorem on_tarDirectories_plain {name : Text} (leads : s.Leads t []) (h : PlainName name)
    (cut : Text.cut '/' name = way ++ [last]) (straight : Straight t (way ++ [last])) :
    ∃ s', (tarDirectories t name).on s = (.ok (), s') ∧ s'.Leads t way := by
  have whole : (Text.cut '/' name).filter (· ≠ []) = way ++ [last] := by
    rw [cut]
    exact List.filter_eq_self.2 fun part hp => by simpa using (straight.plain part hp).ne_nil
  have noDot : endsInPlace name = false := by
    unfold endsInPlace
    rw [whole, List.dropLast_concat]
    simp only [beq_eq_false_iff_ne]
    intro dot
    exact (straight.plain ['.'] (List.mem_append_left _ (List.mem_of_getLast? dot))).ne_dot rfl
  have steps : (tarDirectories t name).on s
      = (if s.leadsToDirectory (t.descend way) then pure ()
        else makeWay t way.dropLast >>= fun _ => makeDirectory (t.descend way)).on s := by
    unfold tarDirectories
    rw [h.parse_eq, cut, List.dropLast_concat, noDot]
    rfl
  rw [steps]
  cases way with
  | nil =>
    have here : s.leadsToDirectory (t.descend []) = true := by
      have there := leads.there 0 (Nat.le_refl 0)
      have led : s.resolve (t.descend []) = .ok t := by simpa [FilePath.descend] using leads.settled
      simp only [leadsToDirectory, led]
      simpa [FilePath.descend] using there
    exact ⟨s, by rw [if_pos here]; rfl, leads⟩
  | cons part rest =>
    obtain ⟨above, lowest, e⟩ : ∃ above lowest, part :: rest = above ++ [lowest] :=
      ⟨_, _, (List.dropLast_concat_getLast (List.cons_ne_nil part rest)).symm⟩
    have straight' : Straight t (above ++ [lowest]) := e ▸ straight.of_append
    obtain ⟨s', made, leads'⟩ := on_makeWay_new leads straight'.of_append
    rw [if_neg (by simp [leadsToDirectory_new leads straight.of_append.plain]), e, List.dropLast_concat,
      Disk.on_bind, made]
    refine ⟨_, ?_, leads'.insert_directory (straight'.plain lowest (by simp)).ne_upward⟩
    show (change (·.makeDirectory (t.descend (above ++ [lowest])))).on s' = _
    rw [on_change, leads'.makeDirectory_below straight']

theorem unpackTar_of_plain {name : Text} (leads : s.Leads t []) (h : PlainName name) (content : Content) :
    unpackTar t name content
      = (tarDirectories t name >>= fun _ => putContent (t.descend (Text.cut '/' name)) content) := by
  have inside : (t.descend (Text.cut '/' name)).collapsed.isWithin t := by
    rw [FilePath.collapsed_descend, ← eq_collapsed_of_resolve leads.settled,
      FilePath.foldl_step_of_plain (upward_not_mem_of_plain h)]
    exact FilePath.isWithin_descend t _
  unfold unpackTar
  rw [h.parse_eq]
  dsimp only
  rw [if_neg (by simpa using h.no_nul), if_neg (by simpa using inside)]

theorem on_unpackTar_file {name : Text} (leads : s.Leads t []) (h : PlainName name)
    (cut : Text.cut '/' name = way ++ [last]) (straight : Straight t (way ++ [last])) (bytes : List UInt8) :
    ∃ s', (unpackTar t name (.file bytes)).on s = (.ok (), s')
      ∧ s'.open? (t.descend (way ++ [last])) = .ok (.file bytes) := by
  obtain ⟨s', made, leads'⟩ := on_tarDirectories_plain leads h cut straight
  rw [unpackTar_of_plain leads h, Disk.on_bind, made, cut]
  exact on_put_below leads' straight bytes

theorem exists_error_unpackTar (name : Text) :
    ∃ f, ((unpackTar t name .unreadable).on s).1 = .error f := by
  unfold unpackTar
  dsimp only
  split
  · exact ⟨_, rfl⟩
  split
  · exact ⟨_, rfl⟩
  · rw [Disk.on_bind]
    split
    · exact ⟨.unreadable, rfl⟩
    · next f _ _ => exact ⟨f, rfl⟩

theorem unpackCollapsed_of_plain {name : Text} (h : PlainName name) (content : Content) :
    unpackCollapsed t name content = unpackDown t (Text.cut '/' name) content := by
  have collapsed : FilePath.collapsed ⟨[], Text.cut '/' name⟩ = ⟨[], Text.cut '/' name⟩ :=
    FilePath.collapsed_of_plain (upward_not_mem_of_plain h)
  unfold unpackCollapsed
  rw [h.parse_eq]
  dsimp only
  rw [if_neg (by simpa [FilePath.staysBelow, collapsed] using upward_not_mem_of_plain h), collapsed]

theorem exists_error_unpackCollapsed (name : Text) :
    ∃ f, ((unpackCollapsed t name .unreadable).on s).1 = .error f := by
  unfold unpackCollapsed
  dsimp only
  split
  · exact ⟨_, rfl⟩
  · exact exists_error_unpackDown _

end Unpack

/-! ### The library for 7z archives -/

theorem exists_cut_eq_append (name : Text) : ∃ way last, Text.cut '/' name = way ++ [last] :=
  ⟨_, _, (List.dropLast_concat_getLast (Text.cut_ne_nil '/' name)).symm⟩

/-- What the library for 7z archives promises: in a new directory a file with a plain name comes out
under it, with its bytes; where a directory is unpacked no file can be opened; and an unreadable
member is refused. -/
structure Host.UnpacksSevenZip (h : Host) : Prop where
  file {s : FileStore} {t : FilePath} {m : Member} {bytes : List UInt8} (new : s.Leads t [])
    (content : m.content = .file bytes) (straight : Straight t (Text.cut '/' m.name)) :
    ∃ s', (h.unpackSevenZip t m).on s = (.ok (), s')
      ∧ s'.open? (t.descend (Text.cut '/' m.name)) = .ok (.file bytes)
  directory {s s' : FileStore} {t : FilePath} {m : Member} (new : s.Leads t [])
    (content : m.content = .directory) (straight : Straight t (Text.cut '/' m.name))
    (done : (h.unpackSevenZip t m).on s = (.ok (), s')) :
    ∃ f, s'.open? (t.descend (Text.cut '/' m.name)) = .error f
  unreadable {s : FileStore} {t : FilePath} {m : Member} (content : m.content = .unreadable) :
    ∃ f, ((h.unpackSevenZip t m).on s).1 = .error f

theorem Host.unpacksSevenZip_usual (members? : ArchiveFormat → List UInt8 → Option (List Member)) :
    (usual members?).UnpacksSevenZip where
  file {s t m bytes} new content straight := by
    obtain ⟨way, last, cut⟩ := exists_cut_eq_append m.name
    show ∃ s', (Unpack.unpackCollapsed t m.name m.content).on s = _ ∧ _
    rw [Unpack.unpackCollapsed_of_plain straight.plain, content, cut]
    exact Unpack.on_unpackDown_file new (cut ▸ straight) bytes
  directory {s s' t m} new content straight done := by
    obtain ⟨way, last, cut⟩ := exists_cut_eq_append m.name
    change (Unpack.unpackCollapsed t m.name m.content).on s = _ at done
    rw [Unpack.unpackCollapsed_of_plain straight.plain, content, cut] at done
    rw [cut]
    exact ⟨_, Unpack.open?_unpackDown_directory new (cut ▸ straight) done⟩
  unreadable {s t m} content := by
    show ∃ f, ((Unpack.unpackCollapsed t m.name m.content).on s).1 = _
    rw [content]
    exact Unpack.exists_error_unpackCollapsed m.name

namespace Host

variable {h : Host} {format : ArchiveFormat} {s : FileStore} {t : FilePath} {m : Member}
  (library : format = .sevenZip → h.UnpacksSevenZip)
include library

/-- Whatever the format, a file with a plain name comes out under it. -/
theorem on_unpack_file (new : s.Leads t []) {bytes : List UInt8} (content : m.content = .file bytes)
    (straight : Straight t (Text.cut '/' m.name)) : ∃ s', (h.unpack format t m).on s = (.ok (), s')
      ∧ s'.open? (t.descend (Text.cut '/' m.name)) = .ok (.file bytes) := by
  have file : m.isFile = true := by simp [Member.isFile, content]
  have listed (format : ArchiveFormat) := format.listedName_plain file straight.plain
  obtain ⟨way, last, cut⟩ := exists_cut_eq_append m.name
  have straight' : Straight t (way ++ [last]) := cut ▸ straight
  cases format with
  | zip =>
    have down : (FilePath.parse (ArchiveFormat.zip.listedName m)).downward = way ++ [last] := by
      rw [listed, PlainName.parse_eq straight.plain, cut]
      exact List.filter_eq_self.2 fun part hp => by simpa using (straight'.plain part hp).ne_upward
    simp only [unpack, down, content, cut]
    exact Unpack.on_unpackDown_file new straight' bytes
  | tarXz =>
    simp only [unpack, listed, content, cut]
    exact Unpack.on_unpackTar_file new straight.plain cut straight' bytes
  | sevenZip => exact (library rfl).file new content straight

theorem exists_error_unpack (content : m.content = .unreadable) :
    ∃ f, ((h.unpack format t m).on s).1 = .error f := by
  cases format with
  | zip =>
    simp only [unpack, content]
    exact Unpack.exists_error_unpackDown _
  | tarXz =>
    simp only [unpack, content]
    exact Unpack.exists_error_unpackTar _
  | sevenZip => exact (library rfl).unreadable content

end Host

end DeskCalc
