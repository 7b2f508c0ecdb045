import DeskCalc.Extraction

/-! What unpacking leaves alone.  Steps are confined to a directory if, however they end, they change
nothing but what is at its path and below.  A step that the file system takes is confined if the path
it is given comes out there, so unpacking is confined as soon as every stretch of the way stays in
the directory.  Parts that lead down only do.  A name with steps up, which a tar archive takes as a
whole, may leave the directory on its way and come back, but only if it tells the directory's own
name. -/

namespace DeskCalc

/-! ### Paths -/

namespace FilePath

variable {p t : FilePath}

theorem isWithin_iff : p.isWithin t ↔ p.root = t.root ∧ t.parts <+: p.parts := by
  simp [isWithin]

theorem isWithin_descend (t : FilePath) (parts : List Text) : (t.descend parts).isWithin t :=
  isWithin_iff.2 ⟨rfl, List.prefix_append t.parts parts⟩

theorem collapsed_descend (t : FilePath) (parts : List Text) :
    (t.descend parts).collapsed = parts.foldl step t.collapsed := by
  simp only [collapsed, descend, List.foldl_append]

theorem foldl_step_of_plain {parts : List Text} (plain : upward ∉ parts) (p : FilePath) :
    parts.foldl step p = p.descend parts := by
  induction parts generalizing p with
  | nil => simp [descend]
  | cons part rest ih =>
    obtain ⟨here, there⟩ : part ≠ upward ∧ upward ∉ rest := by simpa [eq_comm] using plain
    have down : p.step part = p.below part := by simp [step, here]
    rw [List.foldl_cons, down, ih there]
    simp [descend, below]

theorem collapsed_of_plain (plain : upward ∉ p.parts) : p.collapsed = p :=
  foldl_step_of_plain plain ⟨p.root, []⟩

/-- Every stretch of the way along `parts` stays in the directory where it begins. -/
def StaysAlong (t : FilePath) (parts : List Text) : Prop :=
  ∀ stretch, stretch <+: parts → (t.descend stretch).collapsed.isWithin t

theorem StaysAlong.of_prefix {parts stretch : List Text} (h : t.StaysAlong parts)
    (begins : stretch <+: parts) : t.StaysAlong stretch :=
  fun shorter begins' => h shorter (begins'.trans begins)

theorem staysAlong_of_plain {parts : List Text} (settled : upward ∉ t.parts) (plain : upward ∉ parts) :
    t.StaysAlong parts := by
  intro stretch begins
  rw [collapsed_descend, collapsed_of_plain settled,
    foldl_step_of_plain fun there => plain (begins.subset there)]
  exact isWithin_descend t stretch

/-- Only the part with the name of a directory leads into it from outside. -/
theorem isWithin_of_step {base : FilePath} {name part : Text} (other : part ≠ name)
    (inside : (p.step part).isWithin (base.below name)) : p.isWithin (base.below name) := by
  rw [isWithin_iff] at inside ⊢
  obtain ⟨root, begins⟩ := inside
  unfold step at root begins
  split at root
  · next up =>
    rw [if_pos up] at begins
    exact ⟨root, begins.trans (List.dropLast_prefix p.parts)⟩
  · next down =>
    rw [if_neg down] at begins
    refine ⟨root, ?_⟩
    rcases List.prefix_concat_iff.1 begins with whole | begins
    · exact absurd (List.append_inj_right' whole rfl) (by simpa using Ne.symm other)
    · exact begins

theorem isWithin_of_foldl {base : FilePath} {name : Text} {parts : List Text} (unnamed : name ∉ parts)
    (inside : (parts.foldl step p).isWithin (base.below name)) : p.isWithin (base.below name) := by
  induction parts generalizing p with
  | nil => exact inside
  | cons part rest ih =>
    obtain ⟨here, there⟩ : part ≠ name ∧ name ∉ rest := by simpa [eq_comm] using unnamed
    exact isWithin_of_step here (ih there inside)

/-- A way that ends in a directory and does not name it never leaves it. -/
theorem staysAlong_of_unnamed {base : FilePath} {name : Text} {parts : List Text} (unnamed : name ∉ parts)
    (inside : ((base.below name).descend parts).collapsed.isWithin (base.below name)) :
    (base.below name).StaysAlong parts := by
  rintro stretch ⟨rest, rfl⟩
  rw [collapsed_descend, List.foldl_append, ← collapsed_descend] at inside
  exact isWithin_of_foldl (fun there => unnamed (List.mem_append_right stretch there)) inside

end FilePath

/-! ### Single changes -/

namespace FileStore

variable {s s' : FileStore} {p q t : FilePath} {e : Entry}

theorem eq_foldl_of_follow {parts : List Text} (led : s.follow p parts = .ok q) :
    q = parts.foldl FilePath.step p := by
  induction parts generalizing p with
  | nil =>
    cases led
    rfl
  | cons part rest ih =>
    unfold follow at led
    split at led
    · cases led
    split at led
    · cases led
    · exact ih led

/-- No path leads elsewhere than its steps do. -/
theorem eq_collapsed_of_resolve (led : s.resolve p = .ok q) : q = p.collapsed := by
  unfold resolve at led
  split at led
  · cases led
  split at led
  · cases led
  · exact eq_foldl_of_follow led

theorem makeDirectory_eq_ok_iff : s.makeDirectory p = .ok s' ↔ ∃ q, s.resolve p = .ok q ∧
    s.isDirectory q = false ∧ s.get? q = none ∧ s' = s.insert q .directory := by
  unfold makeDirectory
  cases s.resolve p with
  | error f => simp
  | ok q =>
    cases directory : s.isDirectory q <;> cases found : s.get? q <;> simp [directory, found]
    exact eq_comm

theorem put_eq_ok_iff : s.put p e = .ok s' ↔ ∃ q, s.resolve p = .ok q ∧
    s.isDirectory q = false ∧ s' = s.insert q e := by
  unfold put
  cases s.resolve p with
  | error f => simp
  | ok q => grind

theorem remove_insert (inside : q.isWithin t) : (s.insert q e).remove t = s.remove t := by
  have kept : ∀ x ∈ s.entries, (!x.1.isWithin t && x.1 != q) = !x.1.isWithin t := by
    intro x _
    by_cases same : x.1 = q
    · simp [same, inside]
    · simp [same]
  simp [insert, remove, inside, List.filter_filter, List.filter_congr kept]

/-- What is made at a path that comes out in a directory goes when the directory does. -/
theorem remove_of_makeDirectory (made : s.makeDirectory p = .ok s') (inside : p.collapsed.isWithin t) :
    s'.remove t = s.remove t := by
  obtain ⟨q, led, -, -, rfl⟩ := makeDirectory_eq_ok_iff.1 made
  exact remove_insert (eq_collapsed_of_resolve led ▸ inside)

theorem remove_of_put (done : s.put p e = .ok s') (inside : p.collapsed.isWithin t) :
    s'.remove t = s.remove t := by
  obtain ⟨q, led, -, rfl⟩ := put_eq_ok_iff.1 done
  exact remove_insert (eq_collapsed_of_resolve led ▸ inside)

end FileStore

/-! ### Steps -/

namespace Disk

variable {ε α β : Type} {t : FilePath}

theorem on_bind (m : Disk ε α) (f : α → Disk ε β) (s : FileStore) :
    (m >>= f).on s = match m.on s with
      | (.ok a, s') => (f a).on s'
      | (.error e, s') => (.error e, s') := by
  have whole : (m >>= f).on s = (ExceptT.bindCont f (m.on s).1).run (m.on s).2 := rfl
  rw [whole]
  rcases m.on s with ⟨e | a, s'⟩ <;> rfl

theorem on_get_bind (f : FileStore → Disk ε α) (s : FileStore) : (get >>= f).on s = (f s).on s := rfl

/-- Steps change nothing but what is at `t` and below it, however they end. -/
def Confined (t : FilePath) (m : Disk ε α) : Prop := ∀ s, (m.on s).2.remove t = s.remove t

theorem confined_pure (a : α) : Confined t (pure a : Disk ε α) := fun _ => rfl

theorem confined_throw (e : ε) : Confined t (throw e : Disk ε α) := fun _ => rfl

theorem confined_get : Confined t (get : Disk ε FileStore) := fun _ => rfl

theorem on_ofExcept (x : Except ε α) (s : FileStore) : (ofExcept x : Disk ε α).on s = (x, s) := by
  cases x <;> rfl

theorem on_adapt {δ : Type} (f : ε → δ) (m : Disk ε α) (s : FileStore) :
    Disk.on (ExceptT.adapt f m) s = ((m.on s).1.mapError f, (m.on s).2) := rfl

theorem confined_ofExcept (x : Except ε α) : Confined t (ofExcept x : Disk ε α) := by
  intro s
  rw [on_ofExcept]

theorem Confined.adapt {δ : Type} {m : Disk ε α} (h : Confined t m) (f : ε → δ) :
    Confined t (ExceptT.adapt f m : Disk δ α) := h

theorem Confined.bind {m : Disk ε α} {f : α → Disk ε β} (first : Confined t m)
    (next : ∀ a, Confined t (f a)) : Confined t (m >>= f) := by
  intro s
  have before := first s
  rw [on_bind]
  split
  · next a s' ended =>
    rw [ended] at before
    exact (next a s').trans before
  · next e s' ended =>
    rw [ended] at before
    exact before

end Disk

namespace Unpack

open Disk

variable {t p : FilePath} {parts : List Text}

theorem on_change (f : FileStore → Except FileFault FileStore) (s : FileStore) :
    (change f).on s = match f s with
      | .ok s' => (.ok (), s')
      | .error fault => (.error (.file fault), s) := by
  rw [change, on_get_bind]
  cases f s <;> rfl

theorem on_ensureDirectory (p : FilePath) (s : FileStore) :
    (ensureDirectory p).on s = match s.makeDirectory p with
      | .ok s' => (.ok (), s')
      | .error .alreadyThere => (.ok (), s)
      | .error fault => (.error (.file fault), s) := by
  rw [ensureDirectory, on_get_bind]
  cases s.makeDirectory p with
  | ok s' => rfl
  | error fault => cases fault <;> rfl

theorem confined_makeDirectory (inside : p.collapsed.isWithin t) : Confined t (makeDirectory p) := by
  intro s
  rw [makeDirectory, on_change]
  split
  · next s' made => exact FileStore.remove_of_makeDirectory made inside
  · rfl

theorem confined_ensureDirectory (inside : p.collapsed.isWithin t) : Confined t (ensureDirectory p) := by
  intro s
  rw [on_ensureDirectory]
  split
  · next s' made => exact FileStore.remove_of_makeDirectory made inside
  · rfl
  · rfl

theorem confined_put (inside : p.collapsed.isWithin t) (e : Entry) : Confined t (put p e) := by
  intro s
  rw [put, on_change]
  split
  · next s' done => exact FileStore.remove_of_put done inside
  · rfl

theorem confined_putContent (inside : p.collapsed.isWithin t) (content : Content) :
    Confined t (putContent p content) := by
  cases content with
  | file bytes => exact confined_put inside _
  | directory => exact confined_ensureDirectory inside
  | unreadable => exact confined_throw _

theorem confined_makeWay
    (inside : ∀ stretch, stretch <+: parts → (p.descend stretch).collapsed.isWithin t) :
    Confined t (makeWay p parts) := by
  induction parts generalizing p with
  | nil => exact confined_pure ()
  | cons part rest ih =>
    have first := confined_ensureDirectory (inside [part] ⟨rest, rfl⟩)
    refine first.bind fun _ => ih fun stretch begins => ?_
    have longer := inside (part :: stretch) (List.prefix_cons_inj part |>.2 begins)
    simpa [FilePath.descend, FilePath.below] using longer

theorem confined_unpackDown (stays : t.StaysAlong parts) (content : Content) :
    Confined t (unpackDown t parts content) :=
  (confined_makeWay (stays.of_prefix (List.dropLast_prefix parts))).bind fun _ =>
    confined_putContent (stays parts (List.prefix_refl parts)) content

theorem confined_tarDirectories {name : Text}
    (stays : t.StaysAlong (FilePath.parse name).parts.dropLast) : Confined t (tarDirectories t name) := by
  refine confined_get.bind fun s => ?_
  split
  · exact confined_pure ()
  split
  · exact confined_makeWay stays
  · exact (confined_makeWay (stays.of_prefix (List.dropLast_prefix _))).bind fun _ =>
      confined_makeDirectory (stays _ (List.prefix_refl _))

/-- A tar archive unpacks in a directory that the name of the member does not tell. -/
theorem confined_unpackTar {base : FilePath} {own name : Text}
    (unnamed : own ∉ (FilePath.parse name).parts) (content : Content) : Confined (base.below own) (unpackTar (base.below own) name content) := by
  unfold unpackTar
  dsimp only
  split
  · exact confined_throw _
  split
  · exact confined_throw _
  · next inside =>
    have stays := FilePath.staysAlong_of_unnamed unnamed (by simpa using inside)
    exact (confined_tarDirectories (stays.of_prefix (List.dropLast_prefix _))).bind fun _ =>
      confined_putContent (stays _ (List.prefix_refl _)) content

theorem confined_unpackCollapsed (settled : FilePath.upward ∉ t.parts) (name : Text) (content : Content) :
    Confined t (unpackCollapsed t name content) := by
  unfold unpackCollapsed
  dsimp only
  split
  · exact confined_throw _
  · next below =>
    obtain ⟨-, plain⟩ : (FilePath.parse name).root = [] ∧
        FilePath.upward ∉ (FilePath.parse name).collapsed.parts := by
      simpa [FilePath.staysBelow] using below
    exact confined_unpackDown (FilePath.staysAlong_of_plain settled plain) content

end Unpack

end DeskCalc
