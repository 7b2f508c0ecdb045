import DeskCalc.Proofs.ResultsFile
import DeskCalc.Proofs.Unpacking
import Mathlib.Data.List.Find
import Mathlib.Data.List.Nodup

/-! Reading archives whose members have plain names.  Every format comes to the text of the first
file whose name is that of a text, and to an error of the archive when there is none.  Only a 7z
archive may choose a directory, because it lists one under its bare name; then nothing can be read.
Nothing can be read either where the member that is chosen is unreadable, or too far down. -/

namespace DeskCalc

/-! ### Errors -/

namespace ReadError

/-- The archive is of no supported format, or no member of it is listed as a text. -/
def IsArchiveError (e : ReadError) : Prop :=
  (∃ suffix, e = .unsupportedFormat suffix) ∨ ∃ format, e = .noTextMember format

/-- The bytes are no text. -/
def IsDecodeError (e : ReadError) : Prop := ∃ d, e = .undecodable d

theorem isReported_iff {e : ReadError} : e.isReported ↔ e.IsArchiveError ∨ e.IsDecodeError := by
  cases e <;> simp [isReported, IsArchiveError, IsDecodeError]

theorem exists_message {e : ReadError} (known : e.isReported) : ∃ text, e.message? = some text := by
  cases e <;> simp [isReported, message?] at known ⊢

end ReadError

theorem UnpackFault.isReported_readError (format : ArchiveFormat) (f : UnpackFault) :
    (f.readError format).isReported = false := by
  cases f <;> rfl

theorem not_isArchiveError_of_readBytes {encoding : Text} {bytes : List UInt8} {e : ReadError}
    (unread : readBytes encoding bytes = .error e) : ¬ e.IsArchiveError := by
  unfold readBytes decodeNamed at unread
  grind [ReadError.IsArchiveError]

/-! ### Names of archives -/

theorem Text.getLast?_join {separator t : Text} {texts : List Text} (last : texts.getLast? = some t)
    (nonempty : t ≠ []) : (join separator texts).getLast? = t.getLast? := by
  induction texts with
  | nil => cases last
  | cons x rest ih =>
    cases rest with
    | nil =>
      cases last
      rfl
    | cons y rest =>
      have ends := ih (by simpa using last)
      have ended : t.getLast?.isSome := by simpa using nonempty
      rw [join, List.getLast?_append, ends]
      exact Option.or_of_isSome ended

namespace FilePath

theorem getLast?_of_suffixes {name piece : Text} (last : (suffixesOf name).getLast? = some ('.' :: piece))
    (nonempty : piece ≠ []) : name.getLast? = piece.getLast? := by
  unfold suffixesOf at last
  split at last
  · cases last
  · have cutLast : (Text.cut '.' (name.dropWhile (· = '.'))).getLast? = some piece := by
      rw [List.getLast?_map, Option.map_eq_some_iff] at last
      obtain ⟨piece', last, same⟩ := last
      cases same
      rw [List.getLast?_tail] at last
      split at last
      · cases last
      · exact last
    have ends : (Text.join ['.'] (Text.cut '.' (name.dropWhile (· = '.')))).getLast? = piece.getLast? :=
      Text.getLast?_join cutLast nonempty
    have ended : piece.getLast?.isSome := by simpa using nonempty
    rw [Text.join_cut] at ends
    rw [← List.takeWhile_append_dropWhile (p := (· = '.')) (l := name), List.getLast?_append, ends]
    exact Option.or_of_isSome ended

theorem getLast?_of_suffix {name extension : Text} (suffix : suffixOf name = '.' :: extension)
    (nonempty : extension ≠ []) : name.getLast? = extension.getLast? := by
  simp only [suffixOf] at suffix
  split at suffix
  · cases suffix
  · have taken := (List.cons.inj suffix).2
    have parts := congrArg List.reverse
      (List.takeWhile_append_dropWhile (p := (· ≠ '.')) (l := name.reverse))
    rw [List.reverse_append, List.reverse_reverse, taken] at parts
    rw [← parts, List.getLast?_append_of_ne_nil _ nonempty]

end FilePath

theorem ArchiveFormat.ofPath?_of_text {p : FilePath} (suffix : p.suffix = textEnding) :
    ArchiveFormat.ofPath? p = none := by
  -- The last two suffixes are taken apart from the last one, so both have to end as the name does.
  have tar : p.suffixes.drop (p.suffixes.length - 2) ≠ [".tar".toList, ".xz".toList] := by
    intro pair
    have last : p.suffixes.getLast? = some ('.' :: "xz".toList) := by
      have := congrArg List.getLast? pair
      rw [List.getLast?_drop] at this
      split at this
      · cases this
      · exact this
    have ends := FilePath.getLast?_of_suffixes last (by decide)
    have text : p.name.getLast? = "txt".toList.getLast? := FilePath.getLast?_of_suffix suffix (by decide)
    exact absurd (text.symm.trans ends) (by decide)
  unfold ofPath?
  rw [suffix, if_neg (by decide), if_neg tar, if_neg (by decide)]

/-! ### The member that is read -/

/-- A file whose name is that of a text. -/
def Member.isTextFile (m : Member) : Bool := m.isFile && isTextName m.name

def Member.bytes? (m : Member) : Option (List UInt8) :=
  match m.content with
  | .file bytes => some bytes
  | .directory | .unreadable => none

/-- The bytes of the first file whose name is that of a text. -/
def firstText (members : List Member) : Option (List UInt8) :=
  (members.find? Member.isTextFile).bind Member.bytes?

namespace ArchiveFormat

/-- Where directories are listed under their bare names, the first member with the name of a text is a
file. -/
def FilesFirst (format : ArchiveFormat) (members : List Member) : Prop :=
  format = sevenZip → ∀ m, members.find? (fun m => isTextName m.name) = some m → m.isFile

theorem not_isTextName_slash (name : Text) : isTextName (name ++ ['/']) = false := by
  rw [isTextName, ← Bool.not_eq_true, List.isSuffixOf_iff_suffix]
  intro suffix
  have ends := suffix.getLast (by decide)
  simp [textEnding] at ends

/-- A file with a plain name is listed as a text by its name, and a directory by a 7z archive only. -/
theorem listsText_plain (format : ArchiveFormat) {m : Member} (h : PlainName m.name) :
    format.listsText m = (isTextName m.name && (m.isFile || format == sevenZip)) := by
  cases file : m.isFile with
  | true => simp [listsText, format.listedName_plain file h, file]
  | false =>
    cases format with
    | zip =>
      have no_nul : '\x00' ∉ m.name ++ ['/'] := by simpa using h.no_nul
      have listed : zip.listedName m = m.name ++ ['/'] := by
        rw [listedName, file]
        exact Text.takeWhile_of_no_nul no_nul
      simp [listsText, listed, not_isTextName_slash]
    | tarXz => simp [listsText, file]
    | sevenZip => simp [listsText, listedName]

theorem listedName_of_listsText {format : ArchiveFormat} {m : Member} (h : PlainName m.name)
    (listed : format.listsText m = true) : format.listedName m = m.name := by
  cases file : m.isFile with
  | true => exact format.listedName_plain file h
  | false =>
    rw [format.listsText_plain h, file] at listed
    obtain rfl : format = sevenZip := by simpa using (Bool.and_eq_true_iff.1 listed).2
    rfl

end ArchiveFormat

/-- The member that is chosen is listed as the first text is, and as a text. -/
theorem exists_first_of_chosenMember {format : ArchiveFormat} {members : List Member} {m : Member}
    (chosen : chosenMember format members = some m) :
    ∃ first, members.find? format.listsText = some first ∧
      format.listedName m = format.listedName first ∧ format.listsText m = true := by
  unfold chosenMember at chosen
  split at chosen
  · cases chosen
  · next first found =>
    refine ⟨first, found, ?_⟩
    have listed := List.find?_some found
    split at chosen
    · next zip =>
      -- A later zip member of the same name takes the place of the first.
      subst zip
      have same : ArchiveFormat.zip.listedName m = ArchiveFormat.zip.listedName first := by
        simpa using List.find?_some chosen
      exact ⟨same, by simpa [ArchiveFormat.listsText, same] using listed⟩
    · cases chosen
      exact ⟨rfl, listed⟩

theorem exists_chosenMember {format : ArchiveFormat} {members : List Member} {first : Member}
    (found : members.find? format.listsText = some first) :
    ∃ m, chosenMember format members = some m := by
  simp only [chosenMember, found]
  split
  · have here := List.mem_of_find?_eq_some found
    exact Option.isSome_iff_exists.1 (List.find?_isSome.2 ⟨first, by simpa using here, by simp⟩)
  · exact ⟨first, rfl⟩

section

variable {format : ArchiveFormat} {members : List Member}
  (plain : ∀ m ∈ members, PlainName m.name)
include plain

theorem chosenMember_distinct (distinct : (members.map Member.name).Nodup) :
    chosenMember format members = members.find? format.listsText := by
  cases found : members.find? format.listsText with
  | none => simp only [chosenMember, found]
  | some first =>
    -- Both are listed under one name, which is their own.
    obtain ⟨m, chosen⟩ := exists_chosenMember found
    obtain ⟨first', found', same, listed⟩ := exists_first_of_chosenMember chosen
    have hm := mem_of_chosenMember chosen
    cases found.symm.trans found'
    have here := List.mem_of_find?_eq_some found
    rw [ArchiveFormat.listedName_of_listsText (plain m hm) listed,
      ArchiveFormat.listedName_of_listsText (plain first here) (List.find?_some found)] at same
    rw [chosen, List.inj_on_of_nodup_map distinct hm here same]

/-- Of plain names those of text files are listed as texts, as long as no directory comes first. -/
theorem find?_listsText (files : format.FilesFirst members) :
    members.find? format.listsText = members.find? Member.isTextFile := by
  rw [List.find?_congr fun m hm => format.listsText_plain (plain m hm)]
  by_cases bare : format = .sevenZip
  · -- The first of all members with the name of a text is the first of the files, because it is a file.
    subst bare
    simp only [BEq.rfl, Bool.or_true, Bool.and_true]
    cases found : members.find? (fun m => isTextName m.name) with
    | none =>
      have noText := List.find?_eq_none.1 found
      refine (List.find?_eq_none.2 fun m hm text => noText m hm ?_).symm
      exact (Bool.and_eq_true_iff.1 text).2
    | some m =>
      obtain ⟨text, before, after, split, none⟩ := List.find?_eq_some_iff_append.1 found
      refine (List.find?_eq_some_iff_append.2 ⟨?_, before, after, split, fun x hx => ?_⟩).symm
      · rw [Member.isTextFile, files rfl m found, text]
        rfl
      · have := none x hx
        simp_all [Member.isTextFile]
  · have other : (format == .sevenZip) = false := by simpa using bare
    exact List.find?_congr fun m _ => by simp [Member.isTextFile, other, Bool.and_comm]

theorem chosenMember_sevenZip :
    chosenMember .sevenZip members = members.find? fun m => isTextName m.name := by
  have bare : chosenMember .sevenZip members = members.find? ArchiveFormat.sevenZip.listsText := by
    unfold chosenMember
    split <;> simp [*]
  rw [bare]
  exact List.find?_congr fun m hm => by
    simp [ArchiveFormat.listsText_plain _ (plain m hm)]

end

/-! ### What is read -/

theorem fst_readMember (h : Host) (format : ArchiveFormat) (encoding : Text) (t : FilePath) (m : Member)
    (s : FileStore) : ((readMember h format encoding t m).on s).1
      = match (h.unpack format t m).on s with
        | (.ok (), s') => readText s' encoding (t.join (FilePath.parse (format.listedName m)))
        | (.error f, _) => .error (f.readError format) := by
  rw [readMember, Disk.on_bind, Disk.on_adapt]
  rcases (h.unpack format t m).on s with ⟨f | ⟨⟩, s'⟩
  · rfl
  · show (Disk.on (ofExcept _) s').1 = _
    rw [Disk.on_ofExcept]

theorem exists_readText_error {s : FileStore} {p : FilePath} {f : FileFault}
    (closed : s.open? p = .error f) (encoding : Text) : ∃ e, readText s encoding p = .error e ∧ e.isReported = false := by
  simp only [readText, closed]
  split
  · exact ⟨.nulInEncoding, rfl, rfl⟩
  · exact ⟨.file f, rfl, rfl⟩

theorem Member.exists_bytes {m : Member} (file : m.isFile = true) (readable : m.content ≠ .unreadable) :
    ∃ bytes, m.content = .file bytes := by
  cases content : m.content with
  | file bytes => exact ⟨bytes, rfl⟩
  | directory => simp [isFile, content] at file
  | unreadable => exact absurd content readable

section

variable {h : Host} {format : ArchiveFormat} {s : FileStore} {t : FilePath} {m : Member}
  (library : format = .sevenZip → h.UnpacksSevenZip) (new : s.Leads t [])
include library new

/-- Reading a file with a plain name gives the text of its bytes. -/
theorem readMember_file {bytes : List UInt8} (content : m.content = .file bytes)
    (straight : Straight t (Text.cut '/' m.name)) (encoding : Text) :
    ((readMember h format encoding t m).on s).1 = readBytes encoding bytes := by
  have file : m.isFile = true := by simp [Member.isFile, content]
  have plain : PlainName m.name := straight.plain
  obtain ⟨s', done, found⟩ := Host.on_unpack_file library new content straight
  rw [fst_readMember, done, format.listedName_plain file plain, plain.join_parse]
  exact readText_of_file found

/-- Reading anything else that is listed as a text ends in an error that is not reported. -/
theorem readMember_misfit (plain : PlainName m.name) (listed : format.listsText m = true)
    (misfit : ¬ ((∃ bytes, m.content = .file bytes) ∧ ShortBelow t (Text.cut '/' m.name)))
    (encoding : Text) :
    ∃ e, ((readMember h format encoding t m).on s).1 = .error e ∧ e.isReported = false := by
  rw [fst_readMember]
  cases done : (h.unpack format t m).on s with
  | mk ended s' =>
    cases ended with
    | error f => exact ⟨_, rfl, f.isReported_readError format⟩
    | ok =>
      -- The member was unpacked, but no file can be opened under its name.
      have closed : ∃ f, s'.open? (t.descend (Text.cut '/' m.name)) = .error f := by
        by_cases short : ShortBelow t (Text.cut '/' m.name)
        · cases content : m.content with
          | file bytes => exact absurd ⟨⟨bytes, content⟩, short⟩ misfit
          | unreadable =>
            obtain ⟨f, refused⟩ := Host.exists_error_unpack (s := s) (t := t) library content
            rw [done] at refused
            cases refused
          | directory =>
            rw [format.listsText_plain plain] at listed
            obtain rfl : format = .sevenZip := by
              simpa [Member.isFile, content] using (Bool.and_eq_true_iff.1 listed).2
            exact (library rfl).directory new content ⟨plain, short⟩ done
        · obtain ⟨f, lost⟩ := FileStore.exists_resolve_error (s := s') new.rooted short
          exact ⟨f, by rw [FileStore.open?, lost]⟩
      obtain ⟨f, closed⟩ := closed
      simp only [ArchiveFormat.listedName_of_listsText plain listed, plain.join_parse]
      exact exists_readText_error closed encoding

end

section

variable {h : Host} {s s' : FileStore} {t p : FilePath} {format : ArchiveFormat} {bytes : List UInt8}
  {members : List Member} (named : ArchiveFormat.ofPath? p = some format)
  (there : s.open? p = .ok (.file bytes)) (made : h.makeTemporary s = .ok (t, s'))
include named there made

theorem readSource_of_named (encoding : Text) :
    readSource h s encoding p = match h.members? format bytes with
      | none => .error (.corruptArchive format)
      | some members => match chosenMember format members with
        | none => .error (.noTextMember format)
        | some m => ((readMember h format encoding t m).on s').1 := by
  have noText : p.suffix ≠ textEnding := by
    intro suffix
    rw [ArchiveFormat.ofPath?_of_text suffix] at named
    cases named
  have opened : s'.open? p = .ok (.file bytes) := by
    obtain ⟨-, -, led, free, nothing, rfl⟩ := Host.makeTemporary_spec made
    exact FileStore.open?_insert_directory (FileStore.grounded_of_resolve led) free nothing there
  rw [readSource_of_made noText made, named]
  dsimp only
  rw [readArchive, Disk.on_get_bind, opened]
  dsimp only
  cases h.members? format bytes with
  | none => rfl
  | some members =>
    dsimp only
    cases chosenMember format members <;> rfl

/-- An archive of members with different plain names, where files come first, is read as the first
file with the name of a text. -/
theorem readSource_distinct (library : format = .sevenZip → h.UnpacksSevenZip)
    (packed : h.members? format bytes = some members) (plain : ∀ m ∈ members, PlainName m.name)
    (short : ∀ m, members.find? Member.isTextFile = some m → ShortBelow t (Text.cut '/' m.name))
    (readable : ∀ m, members.find? Member.isTextFile = some m → m.content ≠ .unreadable)
    (distinct : (members.map Member.name).Nodup)
    (files : format.FilesFirst members) (encoding : Text) :
    readSource h s encoding p = match firstText members with
      | some bytes => readBytes encoding bytes
      | none => .error (.noTextMember format) := by
  rw [readSource_of_named named there made, packed]
  dsimp only
  rw [chosenMember_distinct plain distinct, find?_listsText plain files, firstText]
  cases found : members.find? Member.isTextFile with
  | none => rfl
  | some m =>
    have text : m.isTextFile = true := List.find?_some found
    have hm := List.mem_of_find?_eq_some found
    obtain ⟨content, holds⟩ := Member.exists_bytes (Bool.and_eq_true_iff.1 text).1 (readable m found)
    have here : m.bytes? = some content := by rw [Member.bytes?, holds]
    rw [Option.bind_some, here]
    have new := FileStore.leads_of_makeTemporary made
    exact readMember_file library new holds ⟨plain m hm, short m found⟩ encoding

/-- Where a directory comes first, reading ends with an error that is none of those reported. -/
theorem readSource_directory (library : format = .sevenZip → h.UnpacksSevenZip)
    (packed : h.members? format bytes = some members) (plain : ∀ m ∈ members, PlainName m.name)
    (first : ¬ format.FilesFirst members) (encoding : Text) :
    ∃ e, readSource h s encoding p = .error e ∧ e.isReported = false := by
  obtain ⟨rfl, m, found, directory⟩ : format = .sevenZip ∧
      ∃ m, members.find? (fun m => isTextName m.name) = some m ∧ m.isFile = false := by
    simpa [ArchiveFormat.FilesFirst] using first
  have hm := List.mem_of_find?_eq_some found
  have listed : ArchiveFormat.sevenZip.listsText m = true := by
    simpa [ArchiveFormat.listsText_plain _ (plain m hm)] using List.find?_some found
  have noFile : ¬ ∃ content, m.content = .file content := by
    rintro ⟨content, holds⟩
    simp [Member.isFile, holds] at directory
  rw [readSource_of_named named there made, packed]
  dsimp only
  rw [chosenMember_sevenZip plain, found]
  exact readMember_misfit library (FileStore.leads_of_makeTemporary made) (plain m hm) listed
    (fun fits => noFile fits.1) encoding

end

/-- Archives of members with different plain names are read alike in every format, as long as a 7z
archive lists no directory as its first text.  They give what a text file with the bytes of their
first text file gives, if that can be unpacked and is not too far down, and an error of the archive
exactly when they have no text file.  A 7z archive that lists a directory first cannot be read, and
its error is neither one of the archive nor one of the text. -/
theorem archives_read_alike {h : Host} {s s' : FileStore} {t p : FilePath} {format : ArchiveFormat}
    {archive : List UInt8} {members : List Member} (encoding : Text)
    (library : format = .sevenZip → h.UnpacksSevenZip) (named : ArchiveFormat.ofPath? p = some format)
    (there : s.open? p = .ok (.file archive)) (packed : h.members? format archive = some members)
    (made : h.makeTemporary s = .ok (t, s')) (plain : ∀ m ∈ members, PlainName m.name)
    (short : ∀ m, members.find? Member.isTextFile = some m → ShortBelow t (Text.cut '/' m.name))
    (readable : ∀ m, members.find? Member.isTextFile = some m → m.content ≠ .unreadable)
    (distinct : (members.map Member.name).Nodup) :
    (format.FilesFirst members →
      (∀ bytes, firstText members = some bytes → readSource h s encoding p = readBytes encoding bytes ∧
        ∀ (h' : Host) (s' : FileStore) (q : FilePath), q.suffix = textEnding →
          s'.open? q = .ok (.file bytes) → readSource h' s' encoding q = readBytes encoding bytes) ∧
      (firstText members = none → readSource h s encoding p = .error (.noTextMember format)) ∧
      ((∃ e, readSource h s encoding p = .error e ∧ e.IsArchiveError) ↔ firstText members = none)) ∧
    (¬ format.FilesFirst members →
      ∃ e, readSource h s encoding p = .error e ∧ ¬ e.IsArchiveError ∧ ¬ e.IsDecodeError) := by
  refine ⟨fun files => ?_, fun first => ?_⟩
  · have read := readSource_distinct named there made library packed plain short readable distinct files
      encoding
    cases first : firstText members with
    | none =>
      rw [first] at read
      exact ⟨by simp, fun _ => read, by simp, fun _ => ⟨_, read, .inr ⟨format, rfl⟩⟩⟩
    | some bytes =>
      rw [first] at read
      refine ⟨?_, by simp, ?_, by simp⟩
      · rintro _ ⟨⟩
        refine ⟨read, fun h' s' q suffix there => ?_⟩
        rw [readSource_of_text suffix, readText_of_file there]
      · rintro ⟨e, unread, archive⟩
        exact absurd archive (not_isArchiveError_of_readBytes (read.symm.trans unread))
  · obtain ⟨e, unread, unknown⟩ :=
      readSource_directory named there made library packed plain first encoding
    refine ⟨e, unread, ?_⟩
    rw [← not_or, ← ReadError.isReported_iff, unknown]
    decide

/-- A host of the usual kind, on which only the bytes `archive` are an archive, in every format. -/
def Host.holding (archive : List UInt8) (members : List Member) : Host :=
  .usual fun _ bytes => if bytes = archive then some members else none

/-- A directory, then a file below another directory. -/
theorem archives_read_alike_nested :
    let members : List Member :=
      [⟨"d.txt".toList, .directory⟩, ⟨"a/b.txt".toList, .file [0xff]⟩, ⟨"c.txt".toList, .file [0x31]⟩]
    let h := Host.holding [0xfd] members
    let p := FilePath.parse "o.tar.xz".toList
    let s : FileStore := ⟨[(⟨['/'], h.temporary⟩, .directory), (p, .file [0xfd])]⟩
    readSource h s defaultEncoding p = readBytes defaultEncoding [0xff] ∧
      ¬ ∃ e, readSource h s defaultEncoding p = .error e ∧ e.IsArchiveError := by
  intro members h p s
  have plain : ∀ m ∈ members, PlainName m.name := by decide
  have files : ArchiveFormat.tarXz.FilesFirst members := fun other => absurd other (by decide)
  obtain ⟨s', made⟩ : ∃ s', h.makeTemporary s = .ok (⟨['/'], ["tmp".toList, "tmpaaaaaaaa".toList]⟩, s') :=
    ⟨_, by rfl⟩
  have named : ArchiveFormat.ofPath? p = some .tarXz := by decide
  have there : s.open? p = .ok (.file [0xfd]) := by rfl
  have first : members.find? Member.isTextFile = some ⟨"a/b.txt".toList, .file [0xff]⟩ := by decide
  obtain ⟨read, -, archive⟩ := (archives_read_alike defaultEncoding
    (fun _ => Host.unpacksSevenZip_usual _) named there (by rfl) made plain (by simp [first]; decide)
    (by simp [first]) (by decide)).1 files
  exact ⟨(read [0xff] (by decide)).1, archive.not.2 (by decide)⟩

/-- A 7z archive that lists a directory before its text file cannot be read, while a zip archive of
the same members can. -/
theorem directory_before_text :
    let members : List Member :=
      [⟨"d.txt".toList, .directory⟩, ⟨"e.txt".toList, .file (Utf8.encode "1+1".toList)⟩]
    let h := Host.holding [0x37] members
    let p := FilePath.parse "a.7z".toList
    let q := FilePath.parse "a.zip".toList
    let s : FileStore :=
      ⟨[(⟨['/'], h.temporary⟩, .directory), (p, .file [0x37]), (q, .file [0x37])]⟩
    (∀ m ∈ members, PlainName m.name) ∧ (members.map Member.name).Nodup ∧
      firstText members = some (Utf8.encode "1+1".toList) ∧
      readSource h s defaultEncoding q = .ok "1+1".toList ∧
      readSource h s defaultEncoding p = .error (.file .isDirectory) := by
  intro members h p q s
  have plain : ∀ m ∈ members, PlainName m.name := by decide
  have files : ArchiveFormat.zip.FilesFirst members := fun other => absurd other (by decide)
  obtain ⟨s', made⟩ : ∃ s', h.makeTemporary s = .ok (⟨['/'], ["tmp".toList, "tmpaaaaaaaa".toList]⟩, s') :=
    ⟨_, by rfl⟩
  have first : members.find? Member.isTextFile
      = some ⟨"e.txt".toList, .file (Utf8.encode "1+1".toList)⟩ := by decide
  have read : readSource h s defaultEncoding q
      = readBytes defaultEncoding (Utf8.encode "1+1".toList) := by
    have named : ArchiveFormat.ofPath? q = some .zip := by decide
    have there : s.open? q = .ok (.file [0x37]) := by rfl
    rw [readSource_distinct named there made nofun (by rfl) plain (by simp [first]; decide)
      (by simp [first]) (by decide) files]
    rfl
  rw [readBytes_encode (by decide)] at read
  exact ⟨plain, by decide, by decide, read, by rfl⟩

end DeskCalc
