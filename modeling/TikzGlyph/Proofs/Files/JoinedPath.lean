import Mathlib.Tactic.SplitIfs
import TikzGlyph.Catalog.Directory
import TikzGlyph.Files.System

/-!
# Paths of files in a directory

A catalog names its files by joining a file name to the path of a directory. The parts of the joined
path are those of the directory and then the name, so following it means following the path of the
directory first and then taking one more step. This file shows that one step decides everything:
what a joined path denotes depends on the directory only through the entry with that name, and
through the length of the whole path.
-/

namespace TikzGlyph

/-! ## Parts of joined paths -/

theorem pathParts_ne_nil (text : List Char) : pathParts text ≠ [] := by
  cases text with
  | nil => simp [pathParts]
  | cons first rest =>
      simp only [pathParts]
      split_ifs
      · simp
      · split <;> simp

theorem pathParts_of_notMem {text : List Char} (plain : '/' ∉ text) : pathParts text = [text] := by
  induction text with
  | nil => rfl
  | cons first rest ih =>
      simp only [List.mem_cons, not_or] at plain
      simp [pathParts, ih plain.2, Ne.symm plain.1]

theorem pathParts_append_slash (front back : List Char) :
    pathParts (front ++ '/' :: back) = pathParts front ++ pathParts back := by
  induction front with
  | nil => simp [pathParts]
  | cons first rest ih =>
      by_cases slash : first = '/'
      · simp [pathParts, slash, ih]
      · cases parts : pathParts rest with
        | nil => exact absurd parts (pathParts_ne_nil rest)
        | cons part others => simp [pathParts, slash, ih, parts]

/-- The parts of a path as names. -/
def pathNames (path : String) : List String := (pathParts path.toList).map String.ofList

/-- A name that a path takes as one step down: neither empty nor a dot name, and without slashes. -/
structure IsPlainName (name : String) : Prop where
  ne_empty : name ≠ ""
  ne_dot : name ≠ "."
  ne_dots : name ≠ ".."
  slash_notMem : '/' ∉ name.toList

namespace DirectoryCatalog

@[simp]
theorem join_empty (name : String) : join "" name = name := by
  simp [join]

/-- A path that is not empty ends in a slash or gets one. -/
theorem exists_join_eq {base : String} (nonempty : base ≠ "") (name : String) :
    ∃ front : List Char, (join base name).toList = front ++ '/' :: name.toList ∧
      (base.toList = front ∨ base.toList = front ++ ['/']) := by
  by_cases slash : base.toList.getLast? = some '/'
  · rcases List.getLast?_eq_some_iff.mp slash with ⟨front, baseEq⟩
    refine ⟨front, ?_, Or.inr baseEq⟩
    simp [join, baseEq]
  · refine ⟨base.toList, ?_, Or.inl rfl⟩
    have lastNe : base.toList.getLast?.all (· = '/') = false := by
      cases last : base.toList.getLast? with
      | none => simp_all
      | some character => simpa [last] using slash
    simp [join, lastNe]

theorem le_utf8ByteSize_join (base name : String) :
    base.utf8ByteSize + name.utf8ByteSize ≤ (join base name).utf8ByteSize := by
  unfold join
  split
  · exact Nat.le_of_eq String.utf8ByteSize_append.symm
  · rw [String.utf8ByteSize_append, String.utf8ByteSize_append]
    omega

/-- The length of the path of a file, at most one slash aside, is that of its two parts. -/
theorem utf8ByteSize_join_le (base name : String) :
    (join base name).utf8ByteSize ≤ base.utf8ByteSize + 1 + name.utf8ByteSize := by
  unfold join
  split
  · simp [String.utf8ByteSize_append]
  · have slashSize : "/".utf8ByteSize = 1 := by decide
    simp [String.utf8ByteSize_append, slashSize]

theorem mem_join_iff {base name : String} {character : Char} (notSlash : character ≠ '/') :
    character ∈ (join base name).toList ↔ character ∈ base.toList ∨ character ∈ name.toList := by
  unfold join
  split <;> simp [notSlash]

theorem head?_join {base : String} (nonempty : base ≠ "") (name : String) :
    (join base name).toList.head? = base.toList.head? := by
  cases characters : base.toList with
  | nil => exact absurd (String.toList_eq_nil_iff.mp characters) nonempty
  | cons first rest =>
      unfold join
      split <;> simp [characters]

theorem filter_pathNames_join {name : String} (plain : IsPlainName name) (base : String) :
    (pathNames (join base name)).filter (· ≠ "") = (pathNames base).filter (· ≠ "") ++ [name] := by
  have ownParts : pathParts name.toList = [name.toList] := pathParts_of_notMem plain.slash_notMem
  by_cases nonempty : base = ""
  · simp [nonempty, pathNames, ownParts, pathParts, plain.ne_empty]
  · rcases exists_join_eq nonempty name with ⟨front, joinEq, rfl | baseEq⟩
    · simp [pathNames, joinEq, pathParts_append_slash, ownParts, plain.ne_empty]
    · simp [pathNames, joinEq, baseEq, pathParts_append_slash, ownParts, plain.ne_empty,
        pathParts]

end DirectoryCatalog

/-! ## Following joined paths -/

namespace FileTree

/-- The entry with a name in a directory, as a path finds it. -/
def child (name : String) : FileTree → Except FileError FileTree
  | .file _ => .error .notDirectory
  | .directory entries =>
      if longestName < name.utf8ByteSize then .error .nameTooLong
      else
        match entries.lookup name with
        | some child => .ok child
        | none => .error .notFound

/-- The tree that names lead to, or the fault of a path that ends there. -/
def reach (tree : FileTree) (names : List String) : Except FileError FileTree :=
  match tree.get? names with
  | some found => .ok found
  | none => .error .notFound

theorem get?_append_singleton (tree : FileTree) (names : List String) (name : String) :
    tree.get? (names ++ [name]) =
      (tree.get? names).bind fun reached => reached.entries.lookup name := by
  induction names generalizing tree with
  | nil =>
      cases tree with
      | file bytes => simp [get?, entries]
      | directory children =>
          simp only [List.nil_append, get?, Option.bind_some, entries]
          cases children.lookup name with
          | none => rfl
          | some child => simp
  | cons first rest ih =>
      cases tree with
      | file bytes => rfl
      | directory children =>
          simp only [List.cons_append, get?]
          cases children.lookup first with
          | none => rfl
          | some child => exact ih child

theorem resolve_append (tree : FileTree) (names left right : List String) :
    tree.resolve names (left ++ right) =
      (tree.resolve names left).bind fun reached => tree.resolve reached right := by
  induction left generalizing names with
  | nil => rfl
  | cons part rest ih =>
      simp only [List.cons_append, resolve]
      cases tree.get? names with
      | none => rfl
      | some found =>
          cases found with
          | file bytes => rfl
          | directory children =>
              simp only
              split_ifs
              · exact ih names
              · exact ih names.dropLast
              · rfl
              · exact ih (names ++ [part])

/-- An empty part at the end of a path asks for a directory only. -/
theorem reach_resolve_empty (tree : FileTree) (names : List String) (name : String) :
    ((tree.resolve names [""]).bind tree.reach).bind (child name) =
      (tree.reach names).bind (child name) := by
  cases found : tree.get? names with
  | none => simp [resolve, reach, found, Except.bind]
  | some reached =>
      cases reached with
      | file bytes => simp [resolve, reach, found, Except.bind, child]
      | directory children => simp [resolve, reach, found, Except.bind]

theorem reach_resolve_append_empty (tree : FileTree) (names parts : List String)
    (name : String) :
    ((tree.resolve names (parts ++ [""])).bind tree.reach).bind (child name) =
      ((tree.resolve names parts).bind tree.reach).bind (child name) := by
  rw [resolve_append]
  cases tree.resolve names parts with
  | error cause => rfl
  | ok reached => exact reach_resolve_empty tree reached name

/-- A plain name at the end of a path is one step down. -/
theorem reach_resolve_name (tree : FileTree) (names : List String) {name : String}
    (plain : IsPlainName name) :
    (tree.resolve names [name]).bind tree.reach = (tree.reach names).bind (child name) := by
  cases found : tree.get? names with
  | none => simp [resolve, reach, found, Except.bind]
  | some reached =>
      cases reached with
      | file bytes => simp [resolve, reach, found, Except.bind, child]
      | directory children =>
          simp only [resolve, found, plain.ne_empty, plain.ne_dot, plain.ne_dots, or_self,
            if_false, reach, Except.bind, child]
          split_ifs
          · rfl
          · simp only [get?_append_singleton, found, Option.bind_some, entries]

theorem reach_resolve_append_name (tree : FileTree) (names parts : List String) {name : String}
    (plain : IsPlainName name) :
    (tree.resolve names (parts ++ [name])).bind tree.reach =
      ((tree.resolve names parts).bind tree.reach).bind (child name) := by
  rw [resolve_append]
  cases tree.resolve names parts with
  | error cause => rfl
  | ok reached => exact reach_resolve_name tree reached plain

end FileTree

namespace FileSystem

open DirectoryCatalog

/-- The tree that a path denotes. -/
def tree? (system : FileSystem) (path : String) : Except FileError FileTree :=
  (system.names path).bind system.root.reach

/-- The tree in which the names joined to a path are looked up. An empty path stands for the working
directory. -/
def baseTree? (system : FileSystem) (base : String) : Except FileError FileTree :=
  if base = "" then system.root.reach system.workingDirectory else system.tree? base

theorem files_eq_map_tree? (system : FileSystem) (path : String) :
    system.files path = (system.tree? path).map FileTree.toEntry := by
  simp only [files, tree?]
  cases system.names path with
  | error cause => rfl
  | ok names =>
      change (match system.root.get? names with
        | some found => Except.ok found.toEntry
        | none => .error .notFound) = (system.root.reach names).map FileTree.toEntry
      rw [FileTree.reach]
      cases system.root.get? names <;> rfl

theorem tree?_of_nul {path : String} (nul : '\x00' ∈ path.toList) (system : FileSystem) :
    system.tree? path = .error .nameWithNul := by
  simp [tree?, names, nul, Except.bind]

theorem tree?_of_long {path : String} (plain : '\x00' ∉ path.toList)
    (long : longestPath < path.utf8ByteSize) (system : FileSystem) :
    system.tree? path = .error .nameTooLong := by
  have nonempty : path ≠ "" := by
    rintro rfl
    simp [longestPath] at long
  simp [tree?, names, plain, nonempty, long, Except.bind]

theorem tree?_of_short {path : String} (plain : '\x00' ∉ path.toList) (nonempty : path ≠ "")
    (short : path.utf8ByteSize ≤ longestPath) (system : FileSystem) :
    system.tree? path =
      (system.root.resolve (system.start path) (pathNames path)).bind system.root.reach := by
  simp [tree?, names, plain, nonempty, Nat.not_lt.mpr short, pathNames]

theorem tree?_of_plain {name : String} (plain : IsPlainName name)
    (namePlain : '\x00' ∉ name.toList) (short : name.utf8ByteSize ≤ longestPath)
    (system : FileSystem) :
    system.tree? name =
      (system.root.reach system.workingDirectory).bind (FileTree.child name) := by
  have ownParts : pathParts name.toList = [name.toList] := pathParts_of_notMem plain.slash_notMem
  have notAbsolute : name.toList.head? ≠ some '/' := by
    intro absolute
    exact plain.slash_notMem (List.mem_of_mem_head? absolute)
  rw [tree?_of_short namePlain plain.ne_empty short, pathNames, ownParts, start,
    if_neg notAbsolute]
  simpa using FileTree.reach_resolve_name system.root system.workingDirectory plain

/-- What a joined path denotes is an entry of what its directory denotes. -/
theorem tree?_join {base name : String} (plain : IsPlainName name)
    (basePlain : '\x00' ∉ base.toList) (namePlain : '\x00' ∉ name.toList)
    (short : (join base name).utf8ByteSize ≤ longestPath) (system : FileSystem) :
    system.tree? (join base name) = (system.baseTree? base).bind (FileTree.child name) := by
  by_cases nonempty : base = ""
  · subst nonempty
    rw [join_empty] at short ⊢
    exact tree?_of_plain plain namePlain short system
  · have ownParts : pathParts name.toList = [name.toList] :=
      pathParts_of_notMem plain.slash_notMem
    have joinPlain : '\x00' ∉ (join base name).toList := by
      rw [mem_join_iff (by decide)]
      exact not_or.mpr ⟨basePlain, namePlain⟩
    have baseShort : base.utf8ByteSize ≤ longestPath := by
      have joinSize := le_utf8ByteSize_join base name
      omega
    have sameStart : system.start (join base name) = system.start base := by
      rw [start, start, head?_join nonempty]
    rcases exists_join_eq nonempty name with ⟨front, joinEq, baseEq⟩
    have joinNonempty : join base name ≠ "" := by
      intro joined
      simp [joined] at joinEq
    have namesEq : pathNames (join base name) = (pathParts front).map String.ofList ++ [name] := by
      rw [pathNames, joinEq, pathParts_append_slash, ownParts, List.map_append,
        List.map_singleton, String.ofList_toList]
    rw [tree?_of_short joinPlain joinNonempty short, baseTree?, if_neg nonempty,
      tree?_of_short basePlain nonempty baseShort, sameStart, namesEq,
      FileTree.reach_resolve_append_name _ _ _ plain]
    rcases baseEq with baseEq | baseEq
    · rw [pathNames, baseEq]
    · rw [pathNames, baseEq, pathParts_append_slash, List.map_append]
      exact (FileTree.reach_resolve_append_empty _ _ _ name).symm

end FileSystem

end TikzGlyph
