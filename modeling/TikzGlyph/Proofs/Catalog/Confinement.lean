import TikzGlyph.Proofs.Files.JoinedPath
import TikzGlyph.Proofs.Result

/-!
# Catalogs stay in their directory

The identifiers that a directory catalog accepts name files one step below its directory, and the
others are rejected without a look at any file. So a look-up learns nothing about a file tree but
what its directory is and what the one file of the glyph holds. A directory that is not there is
reported with the reason why its path leads nowhere, and this reason belongs to what the directory
is: it may lie further up, and it tells an unknown glyph from one that cannot be loaded.
-/

namespace TikzGlyph

/-- What a tree is, whatever is in it. -/
inductive FileKind
  | file
  | directory
deriving DecidableEq, Repr

def FileTree.kind : FileTree → FileKind
  | .file _ => .file
  | .directory _ => .directory

namespace DirectoryCatalog

/-- An identifier that is no file name. -/
def IsRejected (id : String) : Prop := id = "" ∨ '/' ∈ id.toList ∨ '\\' ∈ id.toList

instance (id : String) : Decidable (IsRejected id) :=
  inferInstanceAs (Decidable (id = "" ∨ '/' ∈ id.toList ∨ '\\' ∈ id.toList))

def fileName (id : String) : String := id ++ ".svg"

section Names

variable {id : String}

theorem path?_of_rejected (rejected : IsRejected id) (base : String) : path? base id = none := by
  have noName : fileName? id = none := if_pos rejected
  rw [path?, noName]
  rfl

theorem path?_of_accepted (accepted : ¬IsRejected id) (base : String) :
    path? base id = some (join base (fileName id)) := by
  have named : fileName? id = some (fileName id) := if_neg accepted
  rw [path?, named]
  rfl

theorem path?_eq_some_iff {base path : String} :
    path? base id = some path ↔ ¬IsRejected id ∧ path = join base (fileName id) := by
  by_cases rejected : IsRejected id
  · simp [path?_of_rejected rejected, rejected]
  · rw [path?_of_accepted rejected, Option.some.injEq, eq_comm]
    exact (and_iff_right rejected).symm

/-- An accepted identifier names one file in the directory, whatever dots it has. -/
theorem isPlainName_fileName (accepted : ¬IsRejected id) : IsPlainName (fileName id) := by
  have characters : (fileName id).toList = id.toList ++ ['.', 's', 'v', 'g'] := by
    simp [fileName]
  have longer : 4 ≤ (fileName id).toList.length := by
    rw [characters]
    simp
  constructor
  · intro empty
    simp [empty] at longer
  · intro dot
    simp [dot] at longer
  · intro dots
    simp [dots] at longer
  · intro slash
    rw [characters, List.mem_append] at slash
    rcases slash with slash | slash
    · exact accepted (Or.inr (Or.inl slash))
    · simp at slash

theorem source_of_rejected (rejected : IsRejected id) (files : Files) (base : String) :
    source files base id = .error (.unknownGlyph id) := by
  rw [source, path?_of_rejected rejected]

theorem contains_of_rejected (rejected : IsRejected id) (files : Files) (base : String) :
    contains files base id = false := by
  rw [contains, path?_of_rejected rejected]

/-- All look-ups of a glyph see the file system at one path. -/
theorem source_congr {left right : Files} {base : String}
    (same : ∀ path, path? base id = some path → left path = right path) :
    source left base id = source right base id := by
  unfold source
  cases located : path? base id with
  | none => rfl
  | some path => simp only [Files.readText, same path located]

theorem contains_congr {left right : Files} {base : String}
    (same : ∀ path, path? base id = some path → left path = right path) :
    contains left base id = contains right base id := by
  unfold contains
  cases located : path? base id with
  | none => rfl
  | some path => simp only [Files.isFile, same path located]

end Names

/-- An entry that two trees of the same kind share is missing in both with the same fault. -/
theorem entry_child_congr {left right : FileTree} {name : String}
    (sameKind : left.kind = right.kind)
    (sameEntry : ((left.child name).map FileTree.toEntry).toOption =
      ((right.child name).map FileTree.toEntry).toOption) :
    (left.child name).map FileTree.toEntry = (right.child name).map FileTree.toEntry := by
  cases left with
  | file leftBytes =>
      cases right with
      | file rightBytes => rfl
      | directory rightEntries => cases sameKind
  | directory leftEntries =>
      cases right with
      | file rightBytes => cases sameKind
      | directory rightEntries =>
          simp only [FileTree.child] at sameEntry ⊢
          split
          · rfl
          · rename_i short
            rw [if_neg short, if_neg short] at sameEntry
            cases leftFound : leftEntries.lookup name <;>
              cases rightFound : rightEntries.lookup name <;>
              simp_all [Except.map, Except.toOption]

/-- The file of a glyph is the same in two file systems, with the same fault if it is not there. -/
theorem files_join_eq {left right : FileSystem} {base name : String} (plain : IsPlainName name)
    (sameBase : (left.baseTree? base).map FileTree.kind =
      (right.baseTree? base).map FileTree.kind)
    (sameEntry : (left.files (join base name)).toOption =
      (right.files (join base name)).toOption) :
    left.files (join base name) = right.files (join base name) := by
  rw [FileSystem.files_eq_map_tree?, FileSystem.files_eq_map_tree?] at sameEntry ⊢
  by_cases nul : '\x00' ∈ (join base name).toList
  · rw [FileSystem.tree?_of_nul nul, FileSystem.tree?_of_nul nul]
  by_cases long : longestPath < (join base name).utf8ByteSize
  · rw [FileSystem.tree?_of_long nul long, FileSystem.tree?_of_long nul long]
  have plainParts : '\x00' ∉ base.toList ∧ '\x00' ∉ name.toList := by
    rw [mem_join_iff (by decide)] at nul
    exact not_or.mp nul
  have joined := FileSystem.tree?_join plain plainParts.1 plainParts.2 (Nat.le_of_not_lt long)
  rw [joined left, joined right] at sameEntry ⊢
  rcases error_or_ok_of_map_eq_map sameBase with ⟨cause, leftBase, rightBase⟩ |
    ⟨leftTree, rightTree, leftBase, rightBase, sameKind⟩
  · rw [leftBase, rightBase]
  · rw [leftBase, rightBase] at sameEntry ⊢
    exact entry_child_congr sameKind sameEntry

/-- A look-up depends on nothing but what the directory is, with the reason if it is not there, and
the file of the glyph. Rejected identifiers are unknown everywhere, and every other identifier
names one file that is one step below the directory. -/
theorem confined (base id : String) :
    (∀ left right : FileSystem,
      (left.baseTree? base).map FileTree.kind = (right.baseTree? base).map FileTree.kind →
      (left.files (join base (fileName id))).toOption =
        (right.files (join base (fileName id))).toOption →
      source left.files base id = source right.files base id ∧
        contains left.files base id = contains right.files base id) ∧
    (IsRejected id → ∀ files : Files,
      source files base id = .error (.unknownGlyph id) ∧ contains files base id = false) ∧
    (¬IsRejected id →
      path? base id = some (join base (fileName id)) ∧ IsPlainName (fileName id) ∧
        (pathNames (join base (fileName id))).filter (· ≠ "") =
          (pathNames base).filter (· ≠ "") ++ [fileName id] ∧
        (base ≠ "" → (join base (fileName id)).toList.head? = base.toList.head?)) := by
  refine ⟨?_, ?_, ?_⟩
  · intro left right sameBase sameEntry
    have sameFile : ∀ path, path? base id = some path → left.files path = right.files path := by
      intro path located
      rcases path?_eq_some_iff.mp located with ⟨accepted, rfl⟩
      exact files_join_eq (isPlainName_fileName accepted) sameBase sameEntry
    exact ⟨source_congr sameFile, contains_congr sameFile⟩
  · intro rejected files
    exact ⟨source_of_rejected rejected files base, contains_of_rejected rejected files base⟩
  · intro accepted
    have plain := isPlainName_fileName accepted
    exact ⟨path?_of_accepted accepted base, plain, filter_pathNames_join plain base,
      fun nonempty => head?_join nonempty (fileName id)⟩

/-- Two trees with the same glyph in a directory, one of which holds more besides. The identifier
`..` is a plain file stem, and one that leads up is rejected. -/
theorem confined_dots :
    (source
        (FileSystem.mk (.directory [("glyphs", .directory [("...svg", .file "<g/>".toUTF8)]),
          ("secret.svg", .file "<path d='M0 0'/>".toUTF8)]) []).files "glyphs" ".." =
      source (FileSystem.mk (.directory [("glyphs", .directory
          [("a.svg", .directory []), ("...svg", .file "<g/>".toUTF8)])]) []).files "glyphs" "..") ∧
    source (FileSystem.mk (.directory [("glyphs", .directory []),
          ("secret.svg", .file "<path d='M0 0'/>".toUTF8)]) []).files "glyphs" "../secret" =
        .error (.unknownGlyph "../secret") ∧
    (pathNames (join "glyphs" (fileName ".."))).filter (· ≠ "") = ["glyphs", "...svg"] := by
  refine ⟨?_, ?_, ?_⟩
  · exact ((confined "glyphs" "..").1 _ _ (by rfl) (by rfl)).1
  · exact ((confined "glyphs" "../secret").2.1 (by decide) _).1
  · exact ((confined "glyphs" "..").2.2 (by decide)).2.2.1

/-- It is not enough that a directory is missing in both trees: below a file its path cannot be
followed, and the glyph then counts as one that cannot be loaded. -/
theorem not_confined_by_missing :
    ¬∀ (left right : FileSystem) (base id : String),
      ((left.baseTree? base).map FileTree.kind).toOption =
        ((right.baseTree? base).map FileTree.kind).toOption →
      (left.files (join base (fileName id))).toOption =
        (right.files (join base (fileName id))).toOption →
      source left.files base id = source right.files base id := by
  intro confined
  have same := confined ⟨.directory [("a", .file "x".toUTF8)], []⟩ ⟨.directory [], []⟩ "a/b" "g"
    (by rfl) (by rfl)
  exact absurd (congrArg failure? same) (by decide +kernel)

end DirectoryCatalog

end TikzGlyph
