import TikzGlyph.Proofs.Files.JoinedPath
import TikzGlyph.Proofs.Result

/-!
# Writing a file

A path leads down from directory to directory, so what it names at its end lies in a directory that
is there. Writing puts a file at this place and needs no directory to be made; a place that was no
directory before is none afterwards either. So the directories of a file system stay what they were,
all paths lead along the same names, and only one place holds another entry.
-/

namespace TikzGlyph

namespace FileTree

variable {tree : FileTree} {parent names other parts : List String} {name part : String}

/-! ## Putting a tree in its place -/

/-- Names lead to a directory. -/
def IsDirectory (tree : FileTree) (names : List String) : Prop :=
  ∃ entries, tree.get? names = some (.directory entries)

theorem isDirectory_iff :
    tree.IsDirectory names ↔ (tree.get? names).map toEntry = some .directory := by
  rw [IsDirectory]
  cases tree.get? names with
  | none => simp
  | some found => cases found <;> simp [toEntry]

theorem lookup_cons_eq_ite (first : String) (child : FileTree) (rest : List (String × FileTree))
    (other : String) :
    ((first, child) :: rest).lookup other =
      if other = first then some child else rest.lookup other := by
  split_ifs with same
  · rw [same, List.lookup_cons_self]
  · rw [List.lookup_cons, beq_false_of_ne same]

theorem lookup_putEntry (name : String) (child : FileTree) (entries : List (String × FileTree))
    (other : String) :
    (putEntry name child entries).lookup other =
      if other = name then some child else entries.lookup other := by
  induction entries with
  | nil => exact lookup_cons_eq_ite name child [] other
  | cons entry rest ih =>
      rcases entry with ⟨first, firstChild⟩
      by_cases found : first = name
      · subst found
        simp only [putEntry, if_true, lookup_cons_eq_ite]
        split_ifs <;> rfl
      · simp only [putEntry, if_neg found, lookup_cons_eq_ite, ih]
        split_ifs with same also
        · exact absurd (same.symm.trans also) found
        · rfl
        · rfl
        · rfl

theorem get?_cons (tree : FileTree) (first : String) (rest : List String) :
    tree.get? (first :: rest) =
      (tree.entries.lookup first).bind fun child => child.get? rest := by
  cases tree with
  | file bytes => rfl
  | directory children =>
      simp only [get?, entries]
      cases children.lookup first <;> rfl

theorem get?_put_cons_self (tree placed : FileTree) (first : String) (rest others : List String) :
    (tree.put placed (first :: rest)).get? (first :: others) =
      (((tree.entries.lookup first).getD (.directory [])).put placed rest).get? others := by
  rw [get?_cons, put, entries, lookup_putEntry, if_pos rfl, Option.bind_some]

theorem get?_put_cons_of_ne {first second : String} (different : second ≠ first)
    (tree placed : FileTree) (rest others : List String) :
    (tree.put placed (first :: rest)).get? (second :: others) = tree.get? (second :: others) := by
  rw [get?_cons, put, entries, lookup_putEntry, if_neg different, get?_cons]

theorem get?_put (tree placed : FileTree) (names : List String) :
    (tree.put placed names).get? names = some placed := by
  induction names generalizing tree with
  | nil => rfl
  | cons first rest ih => rw [get?_put_cons_self, ih]

theorem isDirectory_cons_iff {first : String} {rest : List String} :
    tree.IsDirectory (first :: rest) ↔
      ∃ child, tree.entries.lookup first = some child ∧ child.IsDirectory rest := by
  simp only [IsDirectory, get?_cons, Option.bind_eq_some_iff]
  constructor
  · rintro ⟨children, child, found, reached⟩
    exact ⟨child, found, children, reached⟩
  · rintro ⟨child, found, children, reached⟩
    exact ⟨children, child, found, reached⟩

/-- Nothing lies in what is not a directory. -/
theorem get?_cons_eq_none {first : String} {others : List String}
    (noDirectory : ¬tree.IsDirectory [first]) (below : others ≠ []) :
    tree.get? (first :: others) = none := by
  rw [get?_cons]
  cases found : tree.entries.lookup first with
  | none => rfl
  | some child =>
      cases child with
      | file bytes =>
          rcases List.exists_cons_of_ne_nil below with ⟨second, rest, rfl⟩
          rfl
      | directory children =>
          exact absurd (isDirectory_cons_iff.mpr ⟨_, found, children, rfl⟩) noDirectory

/-- A file put into a directory, and not over a directory, is the only entry that differs. -/
theorem toEntry_get?_put (bytes : ByteArray) (inDirectory : tree.IsDirectory parent)
    (noDirectory : ¬tree.IsDirectory (parent ++ [name])) (elsewhere : other ≠ parent ++ [name]) :
    ((tree.put (.file bytes) (parent ++ [name])).get? other).map toEntry =
      (tree.get? other).map toEntry := by
  induction parent generalizing tree other with
  | nil =>
      cases other with
      | nil =>
          rcases inDirectory with ⟨children, treeEq⟩
          cases treeEq
          rfl
      | cons first others =>
          by_cases same : first = name
          · subst same
            have below : others ≠ [] := by
              rintro rfl
              exact elsewhere rfl
            rcases List.exists_cons_of_ne_nil below with ⟨second, rest, othersEq⟩
            rw [get?_cons_eq_none noDirectory below, List.nil_append, get?_put_cons_self,
              othersEq]
            rfl
          · rw [List.nil_append, get?_put_cons_of_ne same]
  | cons first rest ih =>
      rcases isDirectory_cons_iff.mp inDirectory with ⟨child, found, childDirectory⟩
      cases other with
      | nil =>
          cases tree with
          | file bytes => cases found
          | directory children => rfl
      | cons second others =>
          by_cases same : second = first
          · subst same
            have childNoDirectory : ¬child.IsDirectory (rest ++ [name]) := by
              intro childTarget
              exact noDirectory (isDirectory_cons_iff.mpr ⟨child, found, childTarget⟩)
            have childElsewhere : others ≠ rest ++ [name] := by
              rintro rfl
              exact elsewhere rfl
            rw [List.cons_append, get?_put_cons_self, get?_cons, found, Option.getD_some,
              Option.bind_some]
            exact ih childDirectory childNoDirectory childElsewhere
          · rw [List.cons_append, get?_put_cons_of_ne same]

/-! ## Following a path -/

/-- The names after one more part of a path. -/
def namesAfter (names : List String) (part : String) : Except FileError (List String) :=
  if part = "" ∨ part = "." then .ok names
  else if part = ".." then .ok names.dropLast
  else if longestName < part.utf8ByteSize then .error .nameTooLong
  else .ok (names ++ [part])

/-- Each part of a path but the last leads to a directory. -/
theorem resolve_cons_eq_ok_iff {reached : List String} :
    tree.resolve names (part :: parts) = .ok reached ↔
      tree.IsDirectory names ∧
        ∃ next, namesAfter names part = .ok next ∧ tree.resolve next parts = .ok reached := by
  rw [resolve, IsDirectory, namesAfter]
  cases tree.get? names with
  | none => simp
  | some found =>
      cases found with
      | file bytes => simp
      | directory children =>
          simp only [Option.some.injEq, directory.injEq, exists_eq', true_and]
          split_ifs <;> simp

theorem IsDirectory.dropLast (isDirectory : tree.IsDirectory names) :
    tree.IsDirectory names.dropLast := by
  rcases List.eq_nil_or_concat names with rfl | ⟨parent, name, rfl⟩
  · exact isDirectory
  · rcases isDirectory with ⟨children, found⟩
    rw [List.concat_eq_append, get?_append_singleton] at found
    rw [List.concat_eq_append, List.dropLast_concat]
    cases parentEq : tree.get? parent with
    | none => simp [parentEq] at found
    | some reached =>
        cases reached with
        | file bytes => simp [parentEq, entries] at found
        | directory siblings => exact ⟨siblings, parentEq⟩

/-- The place at names is a directory or lies in one. -/
def IsPlace (tree : FileTree) (names : List String) : Prop :=
  tree.IsDirectory names ∨ ∃ parent name, names = parent ++ [name] ∧ tree.IsDirectory parent

theorem isPlace_of_namesAfter {next : List String} (isDirectory : tree.IsDirectory names)
    (taken : namesAfter names part = .ok next) : tree.IsPlace next := by
  unfold namesAfter at taken
  split_ifs at taken
  · cases taken
    exact .inl isDirectory
  · cases taken
    exact .inl isDirectory.dropLast
  · cases taken
    exact .inr ⟨names, part, rfl, isDirectory⟩

theorem isPlace_of_resolve {reached : List String} (start : tree.IsPlace names)
    (resolved : tree.resolve names parts = .ok reached) : tree.IsPlace reached := by
  induction parts generalizing names with
  | nil =>
      cases resolved
      exact start
  | cons part rest ih =>
      rcases resolve_cons_eq_ok_iff.mp resolved with ⟨isDirectory, next, taken, continued⟩
      exact ih (isPlace_of_namesAfter isDirectory taken) continued

/-- Paths lead along the same names in trees with the same directories. -/
theorem resolve_eq_ok_iff_of_isDirectory_iff {after : FileTree}
    (same : ∀ names, after.IsDirectory names ↔ tree.IsDirectory names) (names parts : List String)
    (reached : List String) :
    after.resolve names parts = .ok reached ↔ tree.resolve names parts = .ok reached := by
  induction parts generalizing names with
  | nil => rfl
  | cons part rest ih => simp only [resolve_cons_eq_ok_iff, same, ih]

end FileTree

namespace FileSystem

variable {before after : FileSystem} {path text : String}

/-- A path names a place for a file: it can be followed, and there is no directory at its end. -/
def IsWritable (system : FileSystem) (path : String) : Prop :=
  ∃ names, system.names path = .ok names ∧ ¬system.root.IsDirectory names

theorem write_eq_ok_iff :
    before.write path text = .ok after ↔ ∃ names, before.names path = .ok names ∧
      ¬before.root.IsDirectory names ∧
        { before with root := before.root.put (.file text.toUTF8) names } = after := by
  rw [write, bind_eq_ok_iff]
  refine exists_congr fun names => and_congr_right fun _ => ?_
  rw [FileTree.IsDirectory]
  split
  next entries found => simp [found]
  next noDirectory =>
    have noneFound : ¬∃ entries, before.root.get? names = some (.directory entries) := by
      rintro ⟨entries, found⟩
      exact noDirectory entries found
    simp [noneFound]

theorem exists_write_iff (text : String) :
    (∃ after, before.write path text = .ok after) ↔ before.IsWritable path := by
  simp only [write_eq_ok_iff, IsWritable]
  constructor
  · rintro ⟨after, names, named, noDirectory, -⟩
    exact ⟨names, named, noDirectory⟩
  · rintro ⟨names, named, noDirectory⟩
    exact ⟨_, names, named, noDirectory, rfl⟩

theorem resolve_of_names {names : List String} (named : before.names path = .ok names) :
    before.root.resolve (before.start path) (pathNames path) = .ok names := by
  unfold FileSystem.names at named
  split_ifs at named
  exact named

theorem isPlace_of_names {names : List String} (named : before.names path = .ok names) :
    before.root.IsPlace names := by
  have resolved := resolve_of_names named
  cases partsEq : pathNames path with
  | nil => exact absurd (List.map_eq_nil_iff.mp partsEq) (pathParts_ne_nil _)
  | cons part rest =>
      rw [partsEq] at resolved
      exact FileTree.isPlace_of_resolve (.inl (FileTree.resolve_cons_eq_ok_iff.mp resolved).1)
        resolved

/-- One file system differs from another only by the text at a path. -/
structure ChangesOnly (before : FileSystem) (path text : String) (after : FileSystem) : Prop where
  workingDirectory_eq : after.workingDirectory = before.workingDirectory
  /-- The path denotes the text. -/
  written : after.files path = .ok (.file text.toUTF8)
  /-- Every place but that of the path holds what it held. -/
  places : ∀ names, before.names path ≠ .ok names →
    (after.root.get? names).map FileTree.toEntry = (before.root.get? names).map FileTree.toEntry
  /-- Every path that leads to another place denotes what it denoted. -/
  paths : ∀ other, before.names other ≠ before.names path → ∀ entry,
    after.files other = .ok entry ↔ before.files other = .ok entry

theorem files_eq_ok_iff {system : FileSystem} {entry : FileEntry} :
    system.files path = .ok entry ↔ ∃ names, system.names path = .ok names ∧
      (system.root.get? names).map FileTree.toEntry = some entry := by
  rw [files, bind_eq_ok_iff]
  refine exists_congr fun names => and_congr_right fun _ => ?_
  cases system.root.get? names <;> simp

theorem names_eq_ok_iff_of_isDirectory_iff
    (same : ∀ names, after.root.IsDirectory names ↔ before.root.IsDirectory names)
    (workingDirectoryEq : after.workingDirectory = before.workingDirectory) (path : String)
    (names : List String) : after.names path = .ok names ↔ before.names path = .ok names := by
  simp only [FileSystem.names, start, workingDirectoryEq]
  split_ifs
  · exact Iff.rfl
  · exact Iff.rfl
  · exact Iff.rfl
  · exact FileTree.resolve_eq_ok_iff_of_isDirectory_iff same _ _ names
  · exact FileTree.resolve_eq_ok_iff_of_isDirectory_iff same _ _ names

/-- Writing a text to a path changes nothing else. -/
theorem changesOnly_of_write (written : before.write path text = .ok after) :
    before.ChangesOnly path text after := by
  rcases write_eq_ok_iff.mp written with ⟨target, named, noDirectory, rfl⟩
  rcases (isPlace_of_names named).resolve_left noDirectory with ⟨parent, name, rfl, inDirectory⟩
  have places : ∀ names, names ≠ parent ++ [name] →
      ((before.root.put (.file text.toUTF8) (parent ++ [name])).get? names).map FileTree.toEntry =
        (before.root.get? names).map FileTree.toEntry := by
    intro names elsewhere
    exact FileTree.toEntry_get?_put _ inDirectory noDirectory elsewhere
  have sameDirectories : ∀ names,
      (before.root.put (.file text.toUTF8) (parent ++ [name])).IsDirectory names ↔
        before.root.IsDirectory names := by
    intro names
    by_cases here : names = parent ++ [name]
    · subst here
      refine iff_of_false ?_ noDirectory
      rw [FileTree.isDirectory_iff, FileTree.get?_put]
      simp [FileTree.toEntry]
    · rw [FileTree.isDirectory_iff, FileTree.isDirectory_iff, places names here]
  have sameNames : ∀ other names,
      FileSystem.names ⟨before.root.put (.file text.toUTF8) (parent ++ [name]),
        before.workingDirectory⟩ other = .ok names ↔ before.names other = .ok names :=
    names_eq_ok_iff_of_isDirectory_iff sameDirectories rfl
  refine ⟨rfl, ?_, ?_, ?_⟩
  · refine files_eq_ok_iff.mpr ⟨parent ++ [name], (sameNames path _).mpr named, ?_⟩
    rw [FileTree.get?_put]
    rfl
  · intro names elsewhere
    apply places
    rintro rfl
    exact elsewhere named
  · intro other elsewhere entry
    simp only [files_eq_ok_iff, sameNames]
    refine exists_congr fun names => and_congr_right fun otherNamed => ?_
    have namesNe : names ≠ parent ++ [name] := by
      rintro rfl
      exact elsewhere (otherNamed.trans named.symm)
    rw [places names namesNe]

end FileSystem

end TikzGlyph
