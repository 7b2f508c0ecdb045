import DeskCalc.Host
import DeskCalc.Proofs.Content

/-! Members with plain names, which lead straight down.  Every format lists a file of such a name
under it, and once the file is unpacked in a new directory its bytes are found there at that path, as
long as the path is not too long.  So reading it gives the text of its bytes, whatever the format.
For a zip or a tar archive this is proved; for a 7z archive it is what its library is relied on to
do. -/

namespace DeskCalc

/-- A part of a path that stands for itself. -/
structure PlainPart (part : Text) : Prop where
  ne_nil : part ≠ []
  ne_dot : part ≠ ['.']
  ne_upward : part ≠ FilePath.upward
  no_nul : '\x00' ∉ part

def PlainName (name : Text) : Prop := ∀ part ∈ Text.cut '/' name, PlainPart part

/-- Parts that are short enough to be followed from a directory. -/
structure ShortBelow (t : FilePath) (parts : List Text) : Prop where
  part : ∀ part ∈ parts, Text.byteCount part ≤ longestPart
  whole : Text.byteCount (t.root ++ Text.join ['/'] (t.parts ++ parts)) ≤ longestPath

/-- Parts that lead straight down from a directory, and not too far. -/
structure Straight (t : FilePath) (parts : List Text) : Prop where
  plain : ∀ part ∈ parts, PlainPart part
  short : ShortBelow t parts

instance (part : Text) : Decidable (PlainPart part) :=
  decidable_of_iff (part ≠ [] ∧ part ≠ ['.'] ∧ part ≠ FilePath.upward ∧ '\x00' ∉ part)
    ⟨fun ⟨a, b, c, d⟩ => ⟨a, b, c, d⟩, fun h => ⟨h.1, h.2, h.3, h.4⟩⟩

instance (name : Text) : Decidable (PlainName name) :=
  inferInstanceAs (Decidable (∀ part ∈ Text.cut '/' name, PlainPart part))

instance (t : FilePath) (parts : List Text) : Decidable (ShortBelow t parts) :=
  decidable_of_iff ((∀ part ∈ parts, Text.byteCount part ≤ longestPart) ∧
      Text.byteCount (t.root ++ Text.join ['/'] (t.parts ++ parts)) ≤ longestPath)
    ⟨fun ⟨a, b⟩ => ⟨a, b⟩, fun h => ⟨h.1, h.2⟩⟩

/-! ### Plain parts and names -/

theorem upward_not_mem_of_plain {parts : List Text} (plain : ∀ part ∈ parts, PlainPart part) :
    FilePath.upward ∉ parts := fun there => (plain _ there).ne_upward rfl

theorem Straight.of_append {t : FilePath} {a b : List Text} (h : Straight t (a ++ b)) : Straight t a where
  plain part hp := h.plain part (List.mem_append_left b hp)
  short := by
    refine ⟨fun part hp => h.short.part part (List.mem_append_left b hp), ?_⟩
    have whole := h.short.whole
    have shorter := Text.byteCount_join_append ['/'] (t.parts ++ a) b
    rw [Text.byteCount_append] at whole ⊢
    rw [List.append_assoc] at shorter
    omega

namespace PlainName

variable {name : Text}

theorem no_nul (h : PlainName name) : '\x00' ∉ name := by
  intro there
  rw [← Text.join_cut '/' name] at there
  rcases Text.mem_join there with slash | ⟨part, hp, there⟩
  · simp at slash
  · exact (h part hp).no_nul there

theorem no_slash_at_end (h : PlainName name) : name.getLast? ≠ some '/' := by
  intro hl
  obtain ⟨t, rfl⟩ := List.getLast?_eq_some_iff.1 hl
  exact (h [] (by simp [Text.cut_concat])).ne_nil rfl

theorem parse_eq (h : PlainName name) : FilePath.parse name = ⟨[], Text.cut '/' name⟩ := by
  have root : ∀ rest, name ≠ '/' :: rest := by
    rintro rest rfl
    exact (h [] (by simp [Text.cut])).ne_nil rfl
  have parts : (Text.cut '/' name).filter (fun part => part ≠ [] && part ≠ ['.'])
      = Text.cut '/' name :=
    List.filter_eq_self.2 fun part hp => by simp [(h part hp).ne_nil, (h part hp).ne_dot]
  unfold FilePath.parse
  rw [parts]
  split <;> simp_all

theorem join_parse (h : PlainName name) (t : FilePath) :
    t.join (FilePath.parse name) = t.descend (Text.cut '/' name) := by
  simp [FilePath.join, h.parse_eq]

end PlainName

theorem Text.takeWhile_of_no_nul {t : Text} (h : '\x00' ∉ t) : t.takeWhile (· ≠ '\x00') = t := by
  have : ∀ c ∈ t, decide (c ≠ '\x00') = true := fun c hc => by
    simpa using fun e : c = '\x00' => h (e ▸ hc)
  have taken := @List.takeWhile_append_of_pos _ (· ≠ '\x00') t [] this
  simpa using taken

/-- Every format lists a file with a plain name under that name. -/
theorem ArchiveFormat.listedName_plain (format : ArchiveFormat) {m : Member} (file : m.isFile = true)
    (h : PlainName m.name) : format.listedName m = m.name := by
  have whole := Text.takeWhile_of_no_nul h.no_nul
  cases format with
  | zip => simp only [listedName, file, if_true, whole]
  | tarXz =>
    simp only [listedName, whole]
    split
    · rfl
    · have last : ∀ c, m.name.reverse.head? = some c → ¬ (c = '/') := by
        rintro c hc rfl
        exact h.no_slash_at_end (by simpa using hc)
      unfold Text.dropEnd
      cases e : m.name.reverse with
      | nil => simpa using e.symm
      | cons c rest =>
        have := last c (by simp [e])
        rw [List.dropWhile_cons_of_neg (by simpa using this), ← e, List.reverse_reverse]
  | sevenZip => rfl

/-! ### Directories on the way down -/

theorem FilePath.toText_descend {t : FilePath} (root : t.root ≠ []) (parts : List Text) :
    (t.descend parts).toText = t.root ++ Text.join ['/'] (t.parts ++ parts) := by
  simp [toText, descend, root]

namespace FileStore

variable {s s' : FileStore} {t : FilePath}

theorem follow_of_isDirectory {parts : List Text} (plain : ∀ part ∈ parts, PlainPart part)
    (short : ∀ part ∈ parts, Text.byteCount part ≤ longestPart)
    (there : ∀ n < parts.length, s.isDirectory (t.descend (parts.take n))) :
    s.follow t parts = .ok (t.descend parts) := by
  induction parts generalizing t with
  | nil => simp [follow, FilePath.descend]
  | cons part rest ih =>
    have here : s.isDirectory t := by simpa [FilePath.descend] using there 0 (by simp)
    have down : t.step part = t.descend [part] := by
      simp [FilePath.step, FilePath.below, FilePath.descend, (plain part (by simp)).ne_upward]
    unfold follow
    rw [if_neg (by simp [here]), if_neg (Nat.not_lt.2 (short part (by simp))), down,
      ih (fun q hq => plain q (by simp [hq])) (fun q hq => short q (by simp [hq])) fun n hn => by
        simpa [FilePath.descend] using there (n + 1) (by simpa using hn)]
    simp [FilePath.descend]

theorem byteCount_of_follow {p q : FilePath} {parts : List Text} (led : s.follow p parts = .ok q) :
    ∀ part ∈ parts, Text.byteCount part ≤ longestPart := by
  induction parts generalizing p with
  | nil => simp
  | cons part rest ih =>
    unfold follow at led
    split at led
    · cases led
    split at led
    · cases led
    · next short => exact List.forall_mem_cons.2 ⟨Nat.not_lt.1 short, ih led⟩

/-- A path that leads straight down from a directory is its own destination when its directories are
there. -/
theorem resolve_straight (root : t.root ≠ []) (settled : s.resolve t = .ok t) {parts : List Text}
    (h : Straight t parts) (there : ∀ n < parts.length, s.isDirectory (t.descend (parts.take n))) :
    s.resolve (t.descend parts) = .ok (t.descend parts) := by
  have spelt : t.toText = t.root ++ Text.join ['/'] t.parts := by simp [FilePath.toText, root]
  unfold resolve at settled
  split at settled
  · cases settled
  next clean =>
  split at settled
  · cases settled
  have nul : '\x00' ∉ (t.descend parts).toText := by
    have nowhere : '\x00' ∉ t.root ++ Text.join ['/'] t.parts := by simpa [← spelt] using clean
    rw [FilePath.toText_descend root]
    intro bad
    rcases List.mem_append.1 bad with bad | bad
    · exact nowhere (List.mem_append_left _ bad)
    · rcases Text.mem_join bad with slash | ⟨part, hp, bad⟩
      · simp at slash
      · rcases List.mem_append.1 hp with above | below
        · exact nowhere (List.mem_append_right _ (Text.mem_join_of_mem above bad))
        · exact (h.plain part below).no_nul bad
  have short : ¬ longestPath < Text.byteCount (t.descend parts).toText := by
    rw [FilePath.toText_descend root]
    exact Nat.not_lt.2 h.short.whole
  unfold resolve
  rw [if_neg (by simpa using nul), if_neg short]
  show s.follow ⟨t.root, []⟩ (t.parts ++ parts) = _
  rw [follow_append, settled]
  exact follow_of_isDirectory h.plain h.short.part there

/-- A path that is too long cannot be followed. -/
theorem exists_resolve_error (root : t.root ≠ []) {parts : List Text} (long : ¬ ShortBelow t parts) :
    ∃ f, s.resolve (t.descend parts) = .error f := by
  cases led : s.resolve (t.descend parts) with
  | error f => exact ⟨f, rfl⟩
  | ok q =>
    refine absurd ?_ long
    unfold resolve at led
    split at led
    · cases led
    split at led
    · cases led
    next fits =>
    refine ⟨fun part hp => byteCount_of_follow led part (List.mem_append_right _ hp), ?_⟩
    rw [← FilePath.toText_descend root]
    exact Nat.not_lt.1 fits

/-- The directories that `parts` lead through from `t` are there, and nothing lies deeper below `t`. -/
structure Leads (s : FileStore) (t : FilePath) (parts : List Text) : Prop where
  rooted : t.root ≠ []
  settled : s.resolve t = .ok t
  there : ∀ n ≤ parts.length, s.isDirectory (t.descend (parts.take n))
  shallow : ∀ e ∈ s.entries, e.1.isWithin t → e.1.parts.length ≤ (t.descend parts).parts.length

/-- A temporary directory is empty. -/
theorem leads_of_makeTemporary {h : Host} (made : h.makeTemporary s = .ok (t, s')) : s'.Leads t [] := by
  obtain ⟨⟨name, -, spelt⟩, -, led, free, nothing, rfl⟩ := Host.makeTemporary_spec made
  refine ⟨by simp [spelt, FilePath.below], resolve_mono (fun _ => isDirectory_insert free) led,
    fun n _ => ?_, fun e he inside => ?_⟩
  · have here : s.insert t .directory |>.isDirectory t := isDirectory_iff.2 (.inr (.inl (by simp)))
    simpa [FilePath.descend] using here
  · rcases List.mem_cons.1 he with rfl | old
    · simp [FilePath.descend]
    · -- What lies below a directory makes it one, so nothing does.
      have kept := remove_of_free free nothing
      have outside := List.filter_eq_self.1 (congrArg FileStore.entries kept) e (List.mem_filter.1 old).1
      simp [inside] at outside

namespace Leads

variable {parts : List Text} {part : Text}

theorem get?_deeper (h : s.Leads t parts) {more : List Text} (deeper : parts.length < more.length) :
    s.get? (t.descend more) = none := by
  simp only [get?, Option.map_eq_none_iff, List.find?_eq_none]
  intro e he
  have bound := h.shallow e he
  simp only [beq_iff_eq]
  intro same
  rw [same] at bound
  have := bound (FilePath.isWithin_descend t more)
  simp [FilePath.descend] at this
  omega

/-- No directory is deeper below. -/
theorem isDirectory_deeper (h : s.Leads t parts) {more : List Text} (deeper : parts.length < more.length)
    (down : ∃ part ∈ more, part ≠ FilePath.upward) : s.isDirectory (t.descend more) = false := by
  rw [← Bool.not_eq_true, isDirectory_iff, h.get?_deeper deeper]
  rintro (upward | ⟨⟨⟩⟩ | ⟨e, he, root, above, below⟩)
  · obtain ⟨part, hp, ne⟩ := down
    exact ne (by simpa using List.all_eq_true.1 upward part (List.mem_append_right _ hp))
  · have begins := List.isPrefixOf_iff_prefix.1 above
    have inside : e.1.isWithin t :=
      FilePath.isWithin_iff.2 ⟨root, (List.prefix_append t.parts more).trans begins⟩
    have bound := h.shallow e he inside
    simp only [FilePath.descend, List.length_append] at below bound
    omega

theorem isDirectory_below (h : s.Leads t parts) (hp : part ≠ FilePath.upward) :
    s.isDirectory (t.descend (parts ++ [part])) = false :=
  h.isDirectory_deeper (by simp) ⟨part, by simp, hp⟩

/-- The directories above one more part are there. -/
theorem there_above (h : s.Leads t parts) {n : Nat} (hn : n < (parts ++ [part]).length) :
    s.isDirectory (t.descend ((parts ++ [part]).take n)) := by
  have hn : n ≤ parts.length := Nat.lt_succ_iff.1 (by simpa using hn)
  rw [List.take_append_of_le_length hn]
  exact h.there n hn

theorem resolve_below (h : s.Leads t parts) (straight : Straight t (parts ++ [part])) :
    s.resolve (t.descend (parts ++ [part])) = .ok (t.descend (parts ++ [part])) :=
  resolve_straight h.rooted h.settled straight fun _ hn => h.there_above hn

/-- What is put one level deeper lies deepest. -/
theorem shallow_insert (h : s.Leads t parts) (x : Entry) {e : FilePath × Entry}
    (he : e ∈ (s.insert (t.descend (parts ++ [part])) x).entries) (inside : e.1.isWithin t) :
    e.1.parts.length ≤ (t.descend (parts ++ [part])).parts.length := by
  rcases List.mem_cons.1 he with rfl | he
  · exact Nat.le_refl _
  · have := h.shallow e (List.mem_filter.1 he).1 inside
    simp only [FilePath.descend, List.length_append] at this ⊢
    omega

theorem makeDirectory_below (h : s.Leads t parts) (straight : Straight t (parts ++ [part])) :
    s.makeDirectory (t.descend (parts ++ [part]))
      = .ok (s.insert (t.descend (parts ++ [part])) .directory) :=
  makeDirectory_eq_ok_iff.2 ⟨_, h.resolve_below straight,
    h.isDirectory_below (straight.plain part (by simp)).ne_upward, h.get?_deeper (by simp), rfl⟩

/-- Where a directory is made one level deeper, the directories lead there. -/
theorem insert_directory (h : s.Leads t parts) (hp : part ≠ FilePath.upward) :
    (s.insert (t.descend (parts ++ [part])) .directory).Leads t (parts ++ [part]) := by
  have free := h.isDirectory_below hp
  refine ⟨h.rooted, resolve_mono (fun _ => isDirectory_insert free) h.settled, fun n hn => ?_,
    fun e he => h.shallow_insert .directory he⟩
  rcases Nat.lt_or_eq_of_le hn with hn | rfl
  · exact isDirectory_insert free (h.there_above hn)
  · rw [List.take_length]
    exact isDirectory_iff.2 (.inr (.inl (by simp)))

/-- A file that is put where the directories lead is found there. -/
theorem open?_insert_below (h : s.Leads t parts) (straight : Straight t (parts ++ [part]))
    (bytes : List UInt8) :
    (s.insert (t.descend (parts ++ [part])) (.file bytes)).open? (t.descend (parts ++ [part]))
      = .ok (.file bytes) :=
  open?_insert (place?_eq_ok_iff.2 ⟨h.resolve_below straight,
    h.isDirectory_below (straight.plain part (by simp)).ne_upward⟩) bytes

end Leads

end FileStore

end DeskCalc
