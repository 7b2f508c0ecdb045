import DeskCalc.Proofs.Temporary

/-! The results file beside its input.  The suffixes of a name, put together, are its end, so that
the name of the results file is the name itself with other dots and an ending after it.  Where a name
has no underscore of its own, the dots can be told from the underscores, and the name from that of
its results.  Paths in one directory lead to different places if their names differ, so that no
results are written over the input. -/

namespace DeskCalc

theorem Text.join_cons (c : Char) (t : Text) (texts : List Text) :
    join [c] (t :: texts) = t ++ (texts.map (c :: ·)).flatten := by
  induction texts generalizing t with
  | nil => simp [join]
  | cons u texts ih => simp [join, ih u]

namespace FilePath

/-! ### Names -/

/-- The suffixes of a name are its end, dots and all. -/
theorem flatten_suffixesOf (name : Text) : (suffixesOf name).flatten <:+ name := by
  unfold suffixesOf
  split
  · exact List.nil_suffix
  · obtain ⟨stem, pieces, cut⟩ :=
      List.exists_cons_of_ne_nil (Text.cut_ne_nil '.' (name.dropWhile (· = '.')))
    have joined := Text.join_cut '.' (name.dropWhile (· = '.'))
    rw [cut, Text.join_cons] at joined
    rw [cut, List.tail_cons]
    exact (joined ▸ List.suffix_append stem _).trans (List.dropWhile_suffix _)

/-- A text with underscores for its dots. -/
def underscored (t : Text) : Text := t.map fun c => if c = '.' then '_' else c

/-- A text with dots for its underscores. -/
def dotted (t : Text) : Text := t.map fun c => if c = '_' then '.' else c

theorem exists_resultsName (name : Text) : ∃ base, name = base ++ (suffixesOf name).flatten ∧
    resultsName name = base ++ underscored (suffixesOf name).flatten ++ resultsEnding :=
  ⟨_, (List.suffix_iff_eq_append.1 (flatten_suffixesOf name)).symm, rfl⟩

theorem length_resultsName (name : Text) : (resultsName name).length = name.length + 12 := by
  obtain ⟨base, parts, results⟩ := exists_resultsName name
  have lengths := congrArg List.length parts
  have ending : resultsEnding.length = 12 := by decide
  simp only [List.length_append] at lengths
  simp only [results, List.length_append, underscored, List.length_map, ending, lengths]

theorem suffixOf_append_resultsEnding (t : Text) : suffixOf (t ++ resultsEnding) = textEnding := by
  obtain ⟨rest, ending⟩ : ∃ rest, resultsEnding.reverse = ['t', 'x', 't'] ++ '.' :: rest := ⟨_, rfl⟩
  have length : (t ++ resultsEnding).length = t.length + 12 := List.length_append
  have extension : (t ++ resultsEnding).reverse.takeWhile (· ≠ '.') = ['t', 'x', 't'] := by
    rw [List.reverse_append, ending, List.append_assoc, List.takeWhile_append_of_pos (by simp)]
    simp
  unfold suffixOf
  rw [extension]
  refine if_neg ?_
  simp only [length, Bool.or_eq_true, decide_eq_true_eq, not_or]
  exact ⟨by decide, by simp⟩

theorem dotted_underscored {t : Text} (plain : '_' ∉ t) : dotted (underscored t) = t := by
  rw [dotted, underscored, List.map_map]
  refine (List.map_congr_left fun c hc => ?_).trans (List.map_id t)
  have other : c ≠ '_' := fun same => plain (same ▸ hc)
  by_cases dot : c = '.' <;> simp [dot, other]

/-- A name without underscores can be read off that of its results. -/
theorem resultsName_inj {a b : Text} (ha : '_' ∉ a) (hb : '_' ∉ b)
    (same : resultsName a = resultsName b) : a = b := by
  have readOff {t : Text} (plain : '_' ∉ t) :
      ∃ front, resultsName t = front ++ resultsEnding ∧ dotted front = t := by
    obtain ⟨base, parts, results⟩ := exists_resultsName t
    rw [parts, List.mem_append, not_or] at plain
    have untouched : dotted base = base := by
      refine (List.map_congr_left fun c hc => if_neg ?_).trans (List.map_id base)
      rintro rfl
      exact plain.1 hc
    refine ⟨_, results, ?_⟩
    rw [dotted, List.map_append, ← dotted, ← dotted, untouched, dotted_underscored plain.2, ← parts]
  obtain ⟨front, results, read⟩ := readOff ha
  obtain ⟨front', results', read'⟩ := readOff hb
  rw [results, results'] at same
  rw [← read, List.append_cancel_right same, read']

end FilePath

/-! ### Places -/

theorem FilePath.parts_eq {p : FilePath} (named : p.name ≠ []) :
    p.parts = p.parts.dropLast ++ [p.name] := by
  have nonempty : p.parts ≠ [] := by
    intro empty
    rw [name, empty] at named
    exact named rfl
  have last : p.name = p.parts.getLast nonempty := by
    rw [name, List.getLast?_eq_some_getLast nonempty, Option.getD_some]
  rw [last, List.dropLast_concat_getLast]

namespace FileStore

variable {s : FileStore} {p p' q : FilePath}

/-- What a path with a name leads to is one step from what the directory of the path leads to. -/
theorem exists_step_of_resolve (named : p.name ≠ []) (led : s.resolve p = .ok q) :
    ∃ m, s.follow ⟨p.root, []⟩ p.parts.dropLast = .ok m ∧ q = m.step p.name := by
  unfold resolve at led
  split at led
  · cases led
  split at led
  · cases led
  · rw [FilePath.parts_eq named, follow_append] at led
    cases way : s.follow ⟨p.root, []⟩ p.parts.dropLast with
    | error f =>
      rw [way] at led
      cases led
    | ok m =>
      rw [way] at led
      simp only [follow] at led
      split at led
      · cases led
      split at led
      · cases led
      exact ⟨m, rfl, (Except.ok.inj led).symm⟩

/-- Steps to different names lead to different paths, unless the second leads up. -/
theorem step_ne_step (m : FilePath) {name name' : Text} (names : name ≠ name')
    (down : name' ≠ FilePath.upward) : m.step name ≠ m.step name' := by
  have second : (m.step name').parts = m.parts ++ [name'] := by
    rw [FilePath.step, if_neg (by simp [down]), FilePath.below]
  intro same
  rw [← same, FilePath.step] at second
  split at second
  · -- A step up leaves fewer parts.
    have lengths := congrArg List.length second
    rw [List.length_dropLast, List.length_append, List.length_singleton] at lengths
    omega
  · exact names (List.singleton_inj.1 (List.append_cancel_left second))

/-- Paths in one directory lead to different places if their names differ, unless the second leads
up. -/
theorem resolve_ne_of_name_ne (root : p.root = p'.root) (way : p.parts.dropLast = p'.parts.dropLast)
    (named : p.name ≠ []) (named' : p'.name ≠ []) (names : p.name ≠ p'.name)
    (down : p'.name ≠ FilePath.upward) (led : s.resolve p' = .ok q) : s.resolve p ≠ .ok q := by
  intro same
  obtain ⟨m, way', step⟩ := exists_step_of_resolve named same
  obtain ⟨m', led', step'⟩ := exists_step_of_resolve named' led
  rw [root, way] at way'
  obtain rfl := Except.ok.inj (way'.symm.trans led')
  exact step_ne_step m names down (step.symm.trans step')

end FileStore

namespace FilePath

theorem resultsName_ne (name : Text) : resultsName name ≠ name := by
  intro same
  have := congrArg List.length same
  rw [length_resultsName] at this
  omega

theorem results_of_name {p : FilePath} (named : p.name ≠ []) : ∃ o, p.results = .ok o ∧
    o.root = p.root ∧ o.parts.dropLast = p.parts.dropLast ∧ o.name = resultsName p.name :=
  ⟨_, if_neg named, rfl, List.dropLast_concat, by rw [name, List.getLast?_concat, Option.getD_some]⟩

/-- The results file of a path with a name.  It is in the same directory.  Its name is that of the
path, with underscores for the dots of the suffixes, and twelve characters more, the last of which
are the suffix of a text; so it is another path, and is read as a text.  Writing to it leaves what
the path leads to.  Any other path has another results file, if there is no underscore in both names.
-/
theorem results_stay_apart {p : FilePath} (named : p.name ≠ []) :
    ∃ o, p.results = .ok o ∧ o.root = p.root ∧ o.parts.dropLast = p.parts.dropLast ∧
      (∃ base, p.name = base ++ p.suffixes.flatten ∧
        o.name = base ++ underscored p.suffixes.flatten ++ "_results.txt".toList) ∧
      o.name.length = p.name.length + 12 ∧ o.suffix = ".txt".toList ∧ o ≠ p ∧
      (∀ h s encoding, readSource h s encoding o = readText s encoding o) ∧
      (∀ (s : FileStore) q bytes, s.place? o = .ok q →
        (s.insert q (.file bytes)).content? p = s.content? p) ∧
      ∀ p' : FilePath, p' ≠ p → '_' ∉ p.name → '_' ∉ p'.name → p'.results ≠ .ok o := by
  obtain ⟨o, results, root, way, resultName⟩ := results_of_name named
  have suffix : o.suffix = textEnding := by
    obtain ⟨base, -, spelt⟩ := exists_resultsName p.name
    rw [FilePath.suffix, resultName, spelt, suffixOf_append_resultsEnding]
  have names : p.name ≠ o.name := resultName ▸ (resultsName_ne p.name).symm
  refine ⟨o, results, root, way, resultName ▸ exists_resultsName p.name,
    resultName ▸ length_resultsName p.name, suffix, fun same => names (same ▸ rfl),
    fun h s encoding => readSource_of_text suffix h s encoding, fun s q bytes place => ?_,
    fun p' other plain plain' same => ?_⟩
  · refine FileStore.content?_insert place ?_
    have long := length_resultsName p.name
    have named' : o.name ≠ [] := by
      rintro empty
      simp [← resultName, empty] at long
    have down : o.name ≠ upward := by
      intro up
      simp [← resultName, up, upward] at long
    exact FileStore.resolve_ne_of_name_ne root.symm way.symm named named' names down
      (FileStore.place?_eq_ok_iff.1 place).1
  · have named' : p'.name ≠ [] := by
      intro empty
      simp [FilePath.results, empty] at same
    obtain ⟨o', results', root', way', resultName'⟩ := results_of_name named'
    obtain rfl := Except.ok.inj (results'.symm.trans same)
    have sameName := resultsName_inj plain' plain (resultName'.symm.trans resultName)
    have sameParts : p'.parts = p.parts := by
      rw [parts_eq named', parts_eq named, sameName, ← way', way]
    refine other ?_
    show FilePath.mk p'.root p'.parts = FilePath.mk p.root p.parts
    rw [← root', root, sameParts]

/-- A hidden file with two dots in a row, beside one that differs from it in a dot only. -/
theorem results_stay_apart_dotted :
    let p := FilePath.parse "dir/..a..tar.xz".toList
    let p' := FilePath.parse "dir/..a.tar.xz".toList
    let o := FilePath.parse "dir/..a__tar_xz_results.txt".toList
    let s : FileStore := ⟨[(p, .file [0x31])]⟩
    p.name ≠ [] ∧ p.results = .ok o ∧ o.name.length = p.name.length + 12 ∧ o.suffix = ".txt".toList ∧
      s.place? o = .ok o ∧ (s.insert o (.file [0x32])).content? p = s.content? p ∧
      p' ≠ p ∧ '_' ∉ p.name ∧ '_' ∉ p'.name ∧ p'.results ≠ .ok o := by
  intro p p' o s
  have named : p.name ≠ [] := by decide
  obtain ⟨o', results, -, -, -, length, suffix, -, -, apart, distinct⟩ := results_stay_apart named
  obtain rfl : o = o' := Except.ok.inj (Eq.trans (by rfl) results)
  have place : s.place? o = .ok o := by rfl
  have other : p' ≠ p := by decide
  have plain : '_' ∉ p.name := by decide
  have plain' : '_' ∉ p'.name := by decide
  exact ⟨named, results, length, suffix, place, apart s o [0x32] place, other, plain, plain',
    distinct p' other plain plain'⟩

end FilePath

end DeskCalc
