import TikzGlyph.Proofs.Catalog.Confinement

/-!
# Answers about one glyph

A directory catalog is asked for the source of a glyph and for whether it has the glyph. The two
answers come from the file system in different ways, one by reading a text and the other by looking
at the kind of a file, and they never contradict each other: a source is the text of a file that the
catalog has, and a glyph that it has is never unknown. An unknown glyph is one whose identifier is
rejected or whose file is not found, and whatever else keeps its file from being read is a failure
to load it.
-/

namespace TikzGlyph

/-! ## Reading the text of a path -/

namespace Files

variable {files : Files} {path : String}

theorem readText_of_error {cause : FileError} (unreachable : files path = .error cause) :
    files.readText path = .error cause := by
  simp [readText, unreachable, bind, Except.bind]

theorem readText_of_directory (found : files path = .ok .directory) :
    files.readText path = .error .isDirectory := by
  simp [readText, found, bind, Except.bind]

theorem readText_of_not_text {bytes : ByteArray} (found : files path = .ok (.file bytes))
    (undecodable : ¬bytes.IsValidUTF8) : files.readText path = .error .notText := by
  have undecoded : String.fromUTF8? bytes = none := dif_neg undecodable
  simp [readText, found, bind, Except.bind, undecoded]

theorem readText_of_text {text : String} (found : files path = .ok (.file text.toUTF8)) :
    files.readText path = .ok text := by
  have decoded : String.fromUTF8? text.toUTF8 = some text := dif_pos text.isValidUTF8
  simp only [readText, found, bind, Except.bind, decoded]

/-- A path leads nowhere, to a directory, to bytes that are no text, or to a text. -/
theorem entry_cases (files : Files) (path : String) :
    (∃ cause, files path = .error cause) ∨ files path = .ok .directory ∨
      (∃ bytes, files path = .ok (.file bytes) ∧ ¬bytes.IsValidUTF8) ∨
      ∃ text : String, files path = .ok (.file text.toUTF8) := by
  cases files path with
  | error cause => exact Or.inl ⟨cause, rfl⟩
  | ok entry =>
      right
      cases entry with
      | directory => exact Or.inl rfl
      | file bytes =>
          right
          by_cases valid : bytes.IsValidUTF8
          · exact Or.inr ⟨String.ofByteArray bytes valid, rfl⟩
          · exact Or.inl ⟨bytes, rfl, valid⟩

end Files

namespace DirectoryCatalog

variable {base id : String}

/-! ## The two answers -/

/-- The source of a glyph and whether there is one, told by what the path of its file denotes. -/
inductive Answers (files : Files) (base id : String) : Except CatalogError String → Bool → Prop
  | rejected (rejected : IsRejected id) : Answers files base id (.error (.unknownGlyph id)) false
  | missing (accepted : ¬IsRejected id)
      (missing : files (join base (fileName id)) = .error .notFound) :
      Answers files base id (.error (.unknownGlyph id)) false
  | unreachable {cause : FileError} (accepted : ¬IsRejected id)
      (unreachable : files (join base (fileName id)) = .error cause)
      (notMissing : cause ≠ .notFound) :
      Answers files base id (.error (.loadFailed id cause.message)) false
  | directory (accepted : ¬IsRejected id)
      (found : files (join base (fileName id)) = .ok .directory) :
      Answers files base id (.error (.loadFailed id FileError.isDirectory.message)) false
  | notText {bytes : ByteArray} (accepted : ¬IsRejected id)
      (found : files (join base (fileName id)) = .ok (.file bytes))
      (undecodable : ¬bytes.IsValidUTF8) :
      Answers files base id (.error (.loadFailed id FileError.notText.message)) true
  | text {text : String} (accepted : ¬IsRejected id)
      (found : files (join base (fileName id)) = .ok (.file text.toUTF8)) :
      Answers files base id (.ok text) true

section Reading

variable {files : Files}

theorem source_of_text {text : String} (accepted : ¬IsRejected id)
    (read : files.readText (join base (fileName id)) = .ok text) :
    source files base id = .ok text := by
  rw [source, path?_of_accepted accepted]
  simp only [read]

theorem source_of_missing (accepted : ¬IsRejected id)
    (missing : files.readText (join base (fileName id)) = .error .notFound) :
    source files base id = .error (.unknownGlyph id) := by
  rw [source, path?_of_accepted accepted]
  simp only [missing]

theorem source_of_error {cause : FileError} (accepted : ¬IsRejected id)
    (unread : files.readText (join base (fileName id)) = .error cause)
    (notMissing : cause ≠ .notFound) :
    source files base id = .error (.loadFailed id cause.message) := by
  rw [source, path?_of_accepted accepted]
  simp only [unread]

end Reading

theorem answers (files : Files) (base id : String) :
    Answers files base id (source files base id) (contains files base id) := by
  by_cases rejected : IsRejected id
  · rw [source_of_rejected rejected, contains_of_rejected rejected]
    exact .rejected rejected
  · have containsEq : contains files base id = files.isFile (join base (fileName id)) := by
      rw [contains, path?_of_accepted rejected]
    rcases files.entry_cases (join base (fileName id)) with ⟨cause, unreachable⟩ | found |
      ⟨bytes, found, undecodable⟩ | ⟨text, found⟩
    · have noFile : contains files base id = false := by
        rw [containsEq, Files.isFile, unreachable]
      have unread := Files.readText_of_error unreachable
      rw [noFile]
      by_cases missing : cause = .notFound
      · subst missing
        rw [source_of_missing rejected unread]
        exact .missing rejected unreachable
      · rw [source_of_error rejected unread missing]
        exact .unreachable rejected unreachable missing
    · have noFile : contains files base id = false := by
        rw [containsEq, Files.isFile, found]
      rw [noFile, source_of_error rejected (Files.readText_of_directory found) (by decide)]
      exact .directory rejected found
    · have contained : contains files base id = true := by
        rw [containsEq, Files.isFile, found]
      rw [contained,
        source_of_error rejected (Files.readText_of_not_text found undecodable) (by decide)]
      exact .notText rejected found undecodable
    · have contained : contains files base id = true := by
        rw [containsEq, Files.isFile, found]
      rw [contained, source_of_text rejected (Files.readText_of_text found)]
      exact .text rejected found

/-! ## What keeps a file from being read -/

/-- A path that a file system follows part by part. -/
structure IsFollowed (path : String) : Prop where
  nul_notMem : '\x00' ∉ path.toList
  size_le : path.utf8ByteSize ≤ longestPath

/-- Why the file of a glyph cannot be read, told by the directory and what is in it. -/
inductive Obstacle (system : FileSystem) (base id : String) : FileError → Prop
  | nul (nul : '\x00' ∈ base.toList ∨ '\x00' ∈ (fileName id).toList) :
      Obstacle system base id .nameWithNul
  | longPath (plain : '\x00' ∉ (join base (fileName id)).toList)
      (long : longestPath < (join base (fileName id)).utf8ByteSize) :
      Obstacle system base id .nameTooLong
  | noBase {cause : FileError} (followed : IsFollowed (join base (fileName id)))
      (unreachable : system.baseTree? base = .error cause) : Obstacle system base id cause
  | baseIsFile {bytes : ByteArray} (followed : IsFollowed (join base (fileName id)))
      (reached : system.baseTree? base = .ok (.file bytes)) : Obstacle system base id .notDirectory
  | longName {entries : List (String × FileTree)} (followed : IsFollowed (join base (fileName id)))
      (reached : system.baseTree? base = .ok (.directory entries))
      (long : longestName < (fileName id).utf8ByteSize) : Obstacle system base id .nameTooLong
  | missing {entries : List (String × FileTree)} (followed : IsFollowed (join base (fileName id)))
      (reached : system.baseTree? base = .ok (.directory entries))
      (short : (fileName id).utf8ByteSize ≤ longestName)
      (missing : entries.lookup (fileName id) = none) : Obstacle system base id .notFound
  | isDirectory {entries children : List (String × FileTree)}
      (followed : IsFollowed (join base (fileName id)))
      (reached : system.baseTree? base = .ok (.directory entries))
      (short : (fileName id).utf8ByteSize ≤ longestName)
      (found : entries.lookup (fileName id) = some (.directory children)) :
      Obstacle system base id .isDirectory
  | notText {entries : List (String × FileTree)} {bytes : ByteArray}
      (followed : IsFollowed (join base (fileName id)))
      (reached : system.baseTree? base = .ok (.directory entries))
      (short : (fileName id).utf8ByteSize ≤ longestName)
      (found : entries.lookup (fileName id) = some (.file bytes))
      (undecodable : ¬bytes.IsValidUTF8) : Obstacle system base id .notText

section Obstacles

variable {system : FileSystem}

section Child

variable {entries : List (String × FileTree)} {name : String}

theorem child_of_some (short : name.utf8ByteSize ≤ longestName) {tree : FileTree}
    (found : entries.lookup name = some tree) :
    FileTree.child name (.directory entries) = .ok tree := by
  simp only [FileTree.child, if_neg (Nat.not_lt.mpr short), found]

theorem child_of_none (short : name.utf8ByteSize ≤ longestName)
    (missing : entries.lookup name = none) :
    FileTree.child name (.directory entries) = .error .notFound := by
  simp only [FileTree.child, if_neg (Nat.not_lt.mpr short), missing]

end Child

theorem files_of_nul {path : String} (nul : '\x00' ∈ path.toList) :
    system.files path = .error .nameWithNul := by
  rw [FileSystem.files_eq_map_tree?, FileSystem.tree?_of_nul nul]
  rfl

theorem files_of_long {path : String} (plain : '\x00' ∉ path.toList)
    (long : longestPath < path.utf8ByteSize) : system.files path = .error .nameTooLong := by
  rw [FileSystem.files_eq_map_tree?, FileSystem.tree?_of_long plain long]
  rfl

/-- A path that is followed denotes an entry of what the directory denotes. -/
theorem files_of_followed (accepted : ¬IsRejected id)
    (followed : IsFollowed (join base (fileName id))) :
    system.files (join base (fileName id)) =
      ((system.baseTree? base).bind (FileTree.child (fileName id))).map FileTree.toEntry := by
  have plain := followed.nul_notMem
  rw [mem_join_iff (by decide), not_or] at plain
  rw [FileSystem.files_eq_map_tree?, FileSystem.tree?_join (isPlainName_fileName accepted) plain.1
    plain.2 followed.size_le]

theorem readText_of_obstacle (accepted : ¬IsRejected id) {cause : FileError}
    (obstacle : Obstacle system base id cause) :
    system.files.readText (join base (fileName id)) = .error cause := by
  cases obstacle with
  | nul nul =>
      apply Files.readText_of_error
      apply files_of_nul
      rwa [mem_join_iff (by decide)]
  | longPath plain long =>
      apply Files.readText_of_error
      exact files_of_long plain long
  | noBase followed unreachable =>
      apply Files.readText_of_error
      rw [files_of_followed accepted followed, unreachable]
      rfl
  | baseIsFile followed reached =>
      apply Files.readText_of_error
      rw [files_of_followed accepted followed, reached]
      rfl
  | longName followed reached long =>
      apply Files.readText_of_error
      rw [files_of_followed accepted followed, reached, Except.bind, FileTree.child, if_pos long]
      rfl
  | missing followed reached short missing =>
      apply Files.readText_of_error
      rw [files_of_followed accepted followed, reached, Except.bind, child_of_none short missing]
      rfl
  | isDirectory followed reached short found =>
      apply Files.readText_of_directory
      rw [files_of_followed accepted followed, reached, Except.bind, child_of_some short found]
      rfl
  | notText followed reached short found undecodable =>
      refine Files.readText_of_not_text ?_ undecodable
      rw [files_of_followed accepted followed, reached, Except.bind, child_of_some short found]
      rfl

/-- A file is read unless there is an obstacle. -/
theorem exists_obstacle_or_text (accepted : ¬IsRejected id) :
    (∃ cause, Obstacle system base id cause) ∨
      ∃ text, system.files.readText (join base (fileName id)) = .ok text := by
  by_cases nul : '\x00' ∈ (join base (fileName id)).toList
  · rw [mem_join_iff (by decide)] at nul
    exact Or.inl ⟨_, .nul nul⟩
  by_cases long : longestPath < (join base (fileName id)).utf8ByteSize
  · exact Or.inl ⟨_, .longPath nul long⟩
  have followed : IsFollowed (join base (fileName id)) := ⟨nul, Nat.le_of_not_lt long⟩
  cases reached : system.baseTree? base with
  | error cause => exact Or.inl ⟨_, .noBase followed reached⟩
  | ok tree =>
      cases tree with
      | file bytes => exact Or.inl ⟨_, .baseIsFile followed reached⟩
      | directory entries =>
          by_cases nameLong : longestName < (fileName id).utf8ByteSize
          · exact Or.inl ⟨_, .longName followed reached nameLong⟩
          have short := Nat.le_of_not_lt nameLong
          cases found : entries.lookup (fileName id) with
          | none => exact Or.inl ⟨_, .missing followed reached short found⟩
          | some child =>
              cases child with
              | directory children =>
                  exact Or.inl ⟨_, .isDirectory followed reached short found⟩
              | file bytes =>
                  by_cases valid : bytes.IsValidUTF8
                  · right
                    refine ⟨String.ofByteArray bytes valid, ?_⟩
                    apply Files.readText_of_text
                    rw [files_of_followed accepted followed, reached, Except.bind,
                      child_of_some short found]
                    rfl
                  · exact Or.inl ⟨_, .notText followed reached short found valid⟩

theorem readText_eq_error_iff (accepted : ¬IsRejected id) {cause : FileError} :
    system.files.readText (join base (fileName id)) = .error cause ↔
      Obstacle system base id cause := by
  constructor
  · intro unread
    have outcome : (∃ other, Obstacle system base id other) ∨ _ := exists_obstacle_or_text accepted
    rcases outcome with ⟨other, obstacle⟩ | ⟨text, read⟩
    · rw [readText_of_obstacle accepted obstacle] at unread
      cases unread
      exact obstacle
    · rw [read] at unread
      cases unread
  · exact readText_of_obstacle accepted

end Obstacles

/-! ## Coherence -/

/-- The two answers about a glyph fit each other and what the path of its file denotes. -/
structure Coheres (system : FileSystem) (base id : String) : Prop where
  has_source_iff : (∃ text, source system.files base id = .ok text) ↔
    contains system.files base id = true ∧
      ∃ bytes, system.files (join base (fileName id)) = .ok (.file bytes) ∧ bytes.IsValidUTF8
  source_iff : ∀ text, source system.files base id = .ok text ↔
    contains system.files base id = true ∧
      system.files (join base (fileName id)) = .ok (.file text.toUTF8)
  known_of_contained : contains system.files base id = true →
    ∀ other, source system.files base id ≠ .error (.unknownGlyph other)
  error_of_not_contained : contains system.files base id = false →
    ∃ cause, source system.files base id = .error cause
  unknown_iff : ∀ other, source system.files base id = .error (.unknownGlyph other) ↔
    other = id ∧
      (IsRejected id ∨ system.files (join base (fileName id)) = .error .notFound)
  load_failed_iff : ∀ other message,
    source system.files base id = .error (.loadFailed other message) ↔
      other = id ∧ ¬IsRejected id ∧
        ∃ cause, cause ≠ .notFound ∧ Obstacle system base id cause ∧ message = cause.message

section Coherence

variable {system : FileSystem}

theorem source_eq_ok_iff {text : String} :
    source system.files base id = .ok text ↔
      contains system.files base id = true ∧
        system.files (join base (fileName id)) = .ok (.file text.toUTF8) := by
  generalize sourceEq : source system.files base id = result
  generalize containsEq : contains system.files base id = contained
  have answered := answers system.files base id
  rw [sourceEq, containsEq] at answered
  cases answered with
  | rejected rejected => simp
  | missing accepted missing => simp
  | unreachable accepted unreachable notMissing => simp
  | directory accepted found => simp
  | notText accepted found undecodable =>
      rw [found]
      simp only [reduceCtorEq, true_and, Except.ok.injEq, FileEntry.file.injEq, false_iff]
      rintro rfl
      exact undecodable text.isValidUTF8
  | text accepted found =>
      rw [found]
      simp [eq_comm, String.toByteArray_inj]

/-- A glyph that is there has a text for a source, or bytes that are no text. -/
theorem exists_file_of_contains (contained : contains system.files base id = true) :
    ¬IsRejected id ∧
      ∃ bytes, system.files (join base (fileName id)) = .ok (.file bytes) := by
  have answered := answers system.files base id
  rw [contained] at answered
  generalize source system.files base id = result at answered
  cases answered with
  | notText accepted found undecodable => exact ⟨accepted, _, found⟩
  | text accepted found => exact ⟨accepted, _, found⟩

theorem source_eq_unknown_iff {other : String} :
    source system.files base id = .error (.unknownGlyph other) ↔
      other = id ∧
        (IsRejected id ∨ system.files (join base (fileName id)) = .error .notFound) := by
  generalize sourceEq : source system.files base id = result
  have answered := answers system.files base id
  rw [sourceEq] at answered
  generalize contains system.files base id = contained at answered
  cases answered with
  | rejected rejected => simp [rejected, eq_comm]
  | missing accepted missing => simp [missing, eq_comm]
  | unreachable accepted unreachable notMissing =>
      simp [accepted, unreachable, notMissing]
  | directory accepted found => simp [accepted, found]
  | notText accepted found undecodable => simp [accepted, found]
  | text accepted found => simp [accepted, found]

theorem source_eq_load_failed_iff {other message : String} :
    source system.files base id = .error (.loadFailed other message) ↔
      other = id ∧ ¬IsRejected id ∧
        ∃ cause, cause ≠ .notFound ∧ Obstacle system base id cause ∧ message = cause.message := by
  constructor
  · intro failed
    by_cases rejected : IsRejected id
    · rw [source_of_rejected rejected] at failed
      cases failed
    cases unread : system.files.readText (join base (fileName id)) with
    | ok text =>
        rw [source_of_text rejected unread] at failed
        cases failed
    | error cause =>
        by_cases missing : cause = .notFound
        · subst missing
          rw [source_of_missing rejected unread] at failed
          cases failed
        · rw [source_of_error rejected unread missing] at failed
          cases failed
          exact ⟨rfl, rejected, cause, missing, (readText_eq_error_iff rejected).mp unread, rfl⟩
  · rintro ⟨rfl, accepted, cause, notMissing, obstacle, rfl⟩
    exact source_of_error accepted (readText_of_obstacle accepted obstacle) notMissing

end Coherence

/-- What a directory catalog answers for a glyph is coherent, in every file tree, for every path to
a directory and for every identifier. -/
theorem coheres (system : FileSystem) (base id : String) : Coheres system base id where
  has_source_iff := by
    constructor
    · rintro ⟨text, read⟩
      rcases source_eq_ok_iff.mp read with ⟨contained, found⟩
      exact ⟨contained, _, found, text.isValidUTF8⟩
    · rintro ⟨contained, bytes, found, valid⟩
      exact ⟨String.ofByteArray bytes valid, source_eq_ok_iff.mpr ⟨contained, found⟩⟩
  source_iff text := source_eq_ok_iff
  known_of_contained := by
    intro contained other unknown
    rcases exists_file_of_contains contained with ⟨accepted, bytes, found⟩
    rcases (source_eq_unknown_iff.mp unknown).2 with rejected | missing
    · exact accepted rejected
    · rw [found] at missing
      cases missing
  error_of_not_contained := by
    intro absent
    cases answer : source system.files base id with
    | error cause => exact ⟨cause, rfl⟩
    | ok text =>
        rw [(source_eq_ok_iff.mp answer).1] at absent
        cases absent
  unknown_iff other := source_eq_unknown_iff
  load_failed_iff other message := source_eq_load_failed_iff

end DirectoryCatalog

end TikzGlyph
