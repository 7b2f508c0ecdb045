import DeskCalc.Proofs.Writing

/-! What the paths of a store lead to.  A file that is put at a place is found under the paths that
lead there; under every other path the same is found as before.  No directory comes or goes with it,
because all that lie above a place have to be there before the place is reached. -/

namespace DeskCalc.FileStore

variable {s : FileStore} {p q : FilePath}

/-- What is found at the end of a path, if anything can be opened there. -/
def content? (s : FileStore) (p : FilePath) : Option Entry := (s.open? p).toOption

/-- Two paths lead to one place. -/
def SamePlace (s : FileStore) (p p' : FilePath) : Prop :=
  ∃ q, s.resolve p = .ok q ∧ s.resolve p' = .ok q

theorem open?_eq_ok_iff {e : Entry} : s.open? p = .ok e ↔
    ∃ q, s.resolve p = .ok q ∧ s.isDirectory q = false ∧ s.get? q = some e := by
  unfold open?
  cases s.resolve p with
  | error f => simp
  | ok q => cases directory : s.isDirectory q <;> cases found : s.get? q <;> simp [directory, found]

theorem content?_eq_some_iff {e : Entry} : s.content? p = some e ↔
    ∃ q, s.resolve p = .ok q ∧ s.isDirectory q = false ∧ s.get? q = some e := by
  rw [← open?_eq_ok_iff, content?]
  cases s.open? p <;> simp [Except.toOption]

/-! ### The directories above a place -/

/-- The directories above a place are there. -/
def Grounded (s : FileStore) (p : FilePath) : Prop :=
  ∀ n < p.parts.length, s.isDirectory ⟨p.root, p.parts.take n⟩

theorem Grounded.step (h : s.Grounded p) (there : s.isDirectory p) (part : Text) :
    s.Grounded (p.step part) := by
  unfold FilePath.step
  split
  · -- A step up leads to a directory above, which has fewer above it.
    intro n hn
    rw [List.length_dropLast] at hn
    have := h n (by omega)
    rwa [List.dropLast_eq_take, List.take_take, Nat.min_eq_left (by omega)]
  · intro n hn
    simp only [FilePath.below, List.length_append, List.length_singleton] at hn ⊢
    rw [List.take_append_of_le_length (by omega)]
    rcases Nat.lt_or_eq_of_le (Nat.lt_succ_iff.1 hn) with below | rfl
    · exact h n below
    · rwa [List.take_length]

theorem Grounded.follow {parts : List Text} (h : s.Grounded p) (led : s.follow p parts = .ok q) :
    s.Grounded q := by
  induction parts generalizing p with
  | nil =>
    cases led
    exact h
  | cons part rest ih =>
    unfold FileStore.follow at led
    split at led
    · cases led
    · next there =>
      split at led
      · cases led
      · exact ih (h.step (by simpa using there) part) led

theorem grounded_of_resolve (led : s.resolve p = .ok q) : s.Grounded q := by
  unfold resolve at led
  split at led
  · cases led
  split at led
  · cases led
  · have start : s.Grounded ⟨p.root, []⟩ := fun n hn => absurd hn (Nat.not_lt_zero n)
    exact start.follow led

/-! ### Putting something at a place -/

section

variable {e : Entry} (ground : s.Grounded q) (free : s.isDirectory q = false)
include ground free

/-- What is put at a place leaves the directories as they are, but for the place itself. -/
theorem isDirectory_insert_iff {p : FilePath} (other : p = q → e ≠ .directory) :
    (s.insert q e).isDirectory p ↔ s.isDirectory p := by
  refine ⟨fun there => ?_, isDirectory_insert free⟩
  rw [isDirectory_iff] at there
  rcases there with upward | found | ⟨x, hx, root, above, deeper⟩
  · exact isDirectory_iff.2 (.inl upward)
  · have apart : p ≠ q := by
      rintro rfl
      rw [get?_insert_self] at found
      exact other rfl (Option.some.inj found)
    rw [get?_insert_of_ne apart] at found
    exact isDirectory_iff.2 (.inr (.inl found))
  · rcases List.mem_cons.1 hx with rfl | hx
    · -- What lies below may be what is new; then the path leads to a directory above its place.
      have := ground p.parts.length deeper
      rwa [root, ← List.prefix_iff_eq_take.1 (List.isPrefixOf_iff_prefix.1 above)] at this
    · exact isDirectory_iff.2 (.inr (.inr ⟨x, (List.mem_filter.1 hx).1, root, above, deeper⟩))

theorem resolve_insert_iff {bytes : List UInt8} {p r : FilePath} :
    (s.insert q (.file bytes)).resolve p = .ok r ↔ s.resolve p = .ok r :=
  ⟨resolve_mono fun _ => (isDirectory_insert_iff ground free (by simp)).1,
    resolve_mono fun _ => (isDirectory_insert_iff ground free (by simp)).2⟩

/-- A file is found where it was when a directory is made at another place. -/
theorem open?_insert_directory {p : FilePath} {bytes : List UInt8} (nothing : s.get? q = none)
    (there : s.open? p = .ok (.file bytes)) :
    (s.insert q .directory).open? p = .ok (.file bytes) := by
  obtain ⟨r, led, file, found⟩ := open?_eq_ok_iff.1 there
  have apart : r ≠ q := by
    rintro rfl
    rw [nothing] at found
    cases found
  have file' : (s.insert q .directory).isDirectory r = false := by
    rw [← Bool.not_eq_true, isDirectory_insert_iff ground free fun same => absurd same apart, file]
    decide
  exact open?_eq_ok_iff.2 ⟨r, resolve_mono (fun _ => isDirectory_insert free) led, file',
    (get?_insert_of_ne apart).trans found⟩

end

section

variable {output : FilePath} {bytes : List UInt8} (place : s.place? output = .ok q)
include place

theorem isDirectory_insert_of_place (p : FilePath) :
    (s.insert q (.file bytes)).isDirectory p = s.isDirectory p := by
  obtain ⟨led, free⟩ := place?_eq_ok_iff.1 place
  exact Bool.eq_iff_iff.2 (isDirectory_insert_iff (grounded_of_resolve led) free (by simp))

/-- A path that does not lead to the place of a new file leads to what it did. -/
theorem content?_insert (other : s.resolve p ≠ .ok q) :
    (s.insert q (.file bytes)).content? p = s.content? p := by
  obtain ⟨led, free⟩ := place?_eq_ok_iff.1 place
  ext e
  simp only [content?_eq_some_iff, resolve_insert_iff (grounded_of_resolve led) free,
    isDirectory_insert_of_place place]
  refine exists_congr fun r => and_congr_right fun led' => and_congr_right fun _ => ?_
  have apart : r ≠ q := by
    rintro rfl
    exact other led'
  rw [get?_insert_of_ne apart]

end

end DeskCalc.FileStore
