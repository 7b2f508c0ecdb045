import DeskCalc.FileStore

/-! What is written to a path is what the path opens to.  Writing puts a file where no directory is,
so that every directory stays one and the path is followed as before.  Whether there is such a place
does not depend on what is written. -/

namespace DeskCalc.FileStore

variable {s : FileStore} {q : FilePath} {e : Entry}

@[simp] theorem get?_insert_self (s : FileStore) (q : FilePath) (e : Entry) :
    (s.insert q e).get? q = some e := by
  simp [insert, get?]

theorem get?_insert_of_ne {p : FilePath} (other : p ≠ q) : (s.insert q e).get? p = s.get? p := by
  have here : (q == p) = false := by simpa using Ne.symm other
  have kept : (s.entries.filter (·.1 != q)).find? (·.1 == p) = s.entries.find? (·.1 == p) := by
    rw [List.find?_filter]
    congr 1
    funext x
    by_cases found : x.1 = p <;> simp [found, other]
  simp only [get?, insert, List.find?_cons, here, kept]

/-- Whether something is kept below a path. -/
def HasBelow (s : FileStore) (p : FilePath) : Prop :=
  ∃ x ∈ s.entries, x.1.root = p.root ∧ p.parts.isPrefixOf x.1.parts ∧
    p.parts.length < x.1.parts.length

theorem isDirectory_iff {p : FilePath} : s.isDirectory p ↔
    p.parts.all (· == FilePath.upward) ∨ s.get? p = some .directory ∨ s.HasBelow p := by
  simp [isDirectory, HasBelow, or_assoc, and_assoc]

theorem HasBelow.insert {p : FilePath} (h : s.HasBelow p) : (s.insert q e).HasBelow p := by
  obtain ⟨x, hx, below⟩ := h
  -- What lies below may be the entry that is replaced; then the new one lies there as well.
  by_cases same : x.1 = q
  · exact ⟨(q, e), by simp [FileStore.insert], by simpa [← same] using below⟩
  · exact ⟨x, by simp [FileStore.insert, hx, same], below⟩

/-- A directory stays one when something is put where no directory is. -/
theorem isDirectory_insert (free : s.isDirectory q = false) {p : FilePath} (there : s.isDirectory p) :
    (s.insert q e).isDirectory p := by
  have other : p ≠ q := by
    rintro rfl
    exact absurd there (by simp [free])
  rw [isDirectory_iff] at there ⊢
  rw [get?_insert_of_ne other]
  exact there.imp_right (Or.imp_right HasBelow.insert)

theorem isDirectory_insert_self {bytes : List UInt8} (free : s.isDirectory q = false) :
    (s.insert q (.file bytes)).isDirectory q = false := by
  rw [← Bool.not_eq_true, isDirectory_iff] at free ⊢
  rw [get?_insert_self]
  rintro (upward | ⟨⟨⟩⟩ | ⟨x, hx, below⟩)
  · exact free (.inl upward)
  · rcases List.mem_cons.1 hx with rfl | hx
    · exact absurd below.2.2 (Nat.lt_irrefl _)
    · exact free (.inr (.inr ⟨x, List.mem_filter.1 hx |>.1, below⟩))

theorem follow_mono {s' : FileStore} (grows : ∀ p, s.isDirectory p → s'.isDirectory p)
    {parts : List Text} {p : FilePath} (led : s.follow p parts = .ok q) :
    s'.follow p parts = .ok q := by
  induction parts generalizing p with
  | nil => exact led
  | cons part rest ih =>
    unfold follow at led ⊢
    split at led
    · cases led
    · next there =>
      rw [if_neg (by simpa using grows p (by simpa using there))]
      split at led
      · cases led
      · next short =>
        rw [if_neg short]
        exact ih led

theorem resolve_mono {s' : FileStore} (grows : ∀ p, s.isDirectory p → s'.isDirectory p)
    {p : FilePath} (led : s.resolve p = .ok q) : s'.resolve p = .ok q := by
  unfold resolve at led ⊢
  split at led
  · cases led
  split at led
  · cases led
  · next plain short =>
    rw [if_neg plain, if_neg short]
    exact follow_mono grows led

/-- The place where a path lets a file be written, or why it cannot be opened for that. -/
def place? (s : FileStore) (p : FilePath) : Except FileFault FilePath :=
  match s.resolve p with
  | .error f => .error f
  | .ok q => if s.isDirectory q then .error .isDirectory else .ok q

theorem place?_eq_ok_iff {p : FilePath} :
    s.place? p = .ok q ↔ s.resolve p = .ok q ∧ s.isDirectory q = false := by
  unfold place?
  cases s.resolve p with
  | error f => simp
  | ok r => grind

theorem write_eq (s : FileStore) (p : FilePath) (bytes : List UInt8) :
    s.write p bytes = match s.place? p with
      | .ok q => .ok (s.insert q (.file bytes))
      | .error f => .error f := by
  unfold write put place?
  cases s.resolve p with
  | error f => rfl
  | ok q => grind

/-- What is written is there. -/
theorem open?_insert {p : FilePath} (place : s.place? p = .ok q) (bytes : List UInt8) :
    (s.insert q (.file bytes)).open? p = .ok (.file bytes) := by
  obtain ⟨led, free⟩ := place?_eq_ok_iff.1 place
  have led' : (s.insert q (.file bytes)).resolve p = .ok q :=
    resolve_mono (fun _ => isDirectory_insert free) led
  simp [open?, led', isDirectory_insert_self free]

end DeskCalc.FileStore
