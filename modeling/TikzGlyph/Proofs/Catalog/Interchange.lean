import TikzGlyph.Catalog.Memory
import TikzGlyph.Proofs.Catalog.Coherence
import TikzGlyph.Proofs.Document.Reading

/-!
# Directories and memory as catalogs

Glyph sources may be kept in memory or written to files of a directory, one for each identifier.
Both catalogs answer alike: an identifier with slashes is no entry in memory and no file name on
disk, and every other one leads to the one file that was written for it. Documents see a catalog
only through the sources of their glyphs, so they are planned alike from both. The file system sets
one bound to this: a path of more than `longestPath` bytes leads nowhere, even to a file that is
there.
-/

namespace TikzGlyph

/-! ## Entries in memory -/

namespace MemoryCatalog

theorem entries_add {catalog : MemoryCatalog} {id : String}
    (fresh : id ∉ catalog.entries.map Prod.fst) (source : String) :
    (catalog.add id source).entries = catalog.entries ++ [(id, source)] := by
  have nothingRemoved : catalog.entries.filter (fun entry => entry.1 ≠ id) = catalog.entries := by
    apply List.filter_eq_self.mpr
    intro entry entryMem
    simp only [ne_eq, decide_not, Bool.not_eq_true', decide_eq_false_iff_not]
    intro same
    apply fresh
    rw [← same]
    exact List.mem_map_of_mem entryMem
  simp only [add, remove, nothingRemoved]

theorem entries_foldl_add {catalog : MemoryCatalog} {entries : List (String × String)}
    (distinct : (catalog.entries.map Prod.fst ++ entries.map Prod.fst).Nodup) :
    (entries.foldl (fun catalog entry => catalog.add entry.1 entry.2) catalog).entries =
      catalog.entries ++ entries := by
  induction entries generalizing catalog with
  | nil => simp
  | cons entry rest ih =>
      have fresh : entry.1 ∉ catalog.entries.map Prod.fst := by
        rw [List.nodup_append] at distinct
        intro known
        exact distinct.2.2 entry.1 known entry.1 (by simp) rfl
      have entriesEq := entries_add fresh entry.2
      rw [List.foldl_cons, ih]
      · rw [entriesEq, List.append_assoc, List.singleton_append]
      · rw [entriesEq]
        simpa using distinct

/-- Distinct identifiers keep their sources. -/
theorem get?_ofEntries {entries : List (String × String)}
    (distinct : (entries.map Prod.fst).Nodup) (id : String) :
    (ofEntries entries).get? id = entries.lookup id := by
  have entriesEq : (ofEntries entries).entries = entries := by
    rw [ofEntries, entries_foldl_add]
    · rfl
    · simpa [empty] using distinct
  rw [get?, entriesEq]

end MemoryCatalog

/-! ## Entries in a directory -/

namespace DirectoryCatalog

/-- The files of a directory that holds the sources of glyphs. -/
def glyphFiles (entries : List (String × String)) : List (String × FileTree) :=
  entries.map fun entry => (fileName entry.1, .file entry.2.toUTF8)

/-- The directory holds the files of some entries and nothing else. -/
def Holds (system : FileSystem) (base : String) (entries : List (String × String)) : Prop :=
  ∃ children, system.baseTree? base = .ok (.directory children) ∧
    ∀ name, children.lookup name = (glyphFiles entries).lookup name

/-- An identifier that a file system can look up in a directory: it has no NUL, its file name is not
too long, and neither is the path of its file. -/
structure IsLookup (base id : String) : Prop where
  nul_notMem : '\x00' ∉ id.toList
  size_le : id.utf8ByteSize ≤ 251
  path_size_le : ∀ path, path? base id = some path → path.utf8ByteSize ≤ longestPath

theorem isLookup_of_base_size_le {base id : String} (baseSizeLe : base.utf8ByteSize ≤ 3839)
    (plain : '\x00' ∉ id.toList) (sizeLe : id.utf8ByteSize ≤ 251) : IsLookup base id := by
  refine ⟨plain, sizeLe, ?_⟩
  intro path located
  rcases path?_eq_some_iff.mp located with ⟨_, rfl⟩
  have suffixSize : ".svg".utf8ByteSize = 4 := by decide
  have joinSizeLe := utf8ByteSize_join_le base (fileName id)
  simp only [fileName, String.utf8ByteSize_append, suffixSize] at joinSizeLe
  simp only [fileName, longestPath]
  omega

theorem fileName_inj {left right : String} : fileName left = fileName right ↔ left = right := by
  constructor
  · intro same
    have sameCharacters := congrArg String.toList same
    simp only [fileName, String.toList_append, List.append_cancel_right_eq] at sameCharacters
    exact String.toList_inj.mp sameCharacters
  · rintro rfl
    rfl

theorem lookup_glyphFiles (entries : List (String × String)) (id : String) :
    (glyphFiles entries).lookup (fileName id) =
      (entries.lookup id).map fun source => .file source.toUTF8 := by
  induction entries with
  | nil => rfl
  | cons entry rest ih =>
      change List.lookup (fileName id) ((fileName entry.1, _) :: glyphFiles rest) = _
      rw [List.lookup_cons, List.lookup_cons]
      by_cases same : id = entry.1
      · simp [same]
      · rw [beq_eq_false_iff_ne.mpr same,
          beq_eq_false_iff_ne.mpr fun sameFile => same (fileName_inj.mp sameFile)]
        exact ih

section Files

variable {system : FileSystem} {base id : String} {entries : List (String × String)}

theorem Holds.nul_notMem (holds : Holds system base entries) : '\x00' ∉ base.toList := by
  rcases holds with ⟨children, reached, _⟩
  intro nul
  have nonempty : base ≠ "" := by
    rintro rfl
    simp at nul
  rw [FileSystem.baseTree?, if_neg nonempty, FileSystem.tree?_of_nul nul] at reached
  cases reached

/-- The file of a glyph holds its source, and it is not found if there is no entry. -/
theorem Holds.tree?_join (holds : Holds system base entries) (accepted : ¬IsRejected id)
    (lookedUp : IsLookup base id) :
    system.tree? (join base (fileName id)) =
      match entries.lookup id with
      | some source => .ok (.file source.toUTF8)
      | none => .error .notFound := by
  have namePlain : '\x00' ∉ (fileName id).toList := by
    simp [fileName, lookedUp.nul_notMem]
  have nameShort : ¬longestName < (fileName id).utf8ByteSize := by
    have suffixSize : ".svg".utf8ByteSize = 4 := by decide
    have sizeLe := lookedUp.size_le
    simp only [fileName, String.utf8ByteSize_append, suffixSize, longestName]
    omega
  have pathShort := lookedUp.path_size_le _ (path?_of_accepted accepted base)
  rw [FileSystem.tree?_join (isPlainName_fileName accepted) holds.nul_notMem namePlain pathShort]
  rcases holds with ⟨children, reached, childrenEq⟩
  rw [reached]
  change FileTree.child (fileName id) (.directory children) = _
  rw [FileTree.child, if_neg nameShort, childrenEq, lookup_glyphFiles]
  cases entries.lookup id <;> rfl

theorem lookup_of_rejected (valid : ∀ entry ∈ entries, ¬IsRejected entry.1)
    (rejected : IsRejected id) : entries.lookup id = none := by
  apply List.lookup_eq_none_iff.mpr
  intro entry entryMem
  simp only [bne_iff_ne, ne_eq]
  rintro rfl
  exact valid entry entryMem rejected

theorem Holds.source_eq (holds : Holds system base entries)
    (valid : ∀ entry ∈ entries, ¬IsRejected entry.1) (lookedUp : IsLookup base id) :
    source system.files base id =
      match entries.lookup id with
      | some text => .ok text
      | none => .error (.unknownGlyph id) := by
  by_cases rejected : IsRejected id
  · rw [source_of_rejected rejected, lookup_of_rejected valid rejected]
  · have found := FileSystem.files_eq_map_tree? system (join base (fileName id))
    rw [holds.tree?_join rejected lookedUp] at found
    cases entry : entries.lookup id with
    | none =>
        rw [entry] at found
        exact source_of_missing rejected (Files.readText_of_error found)
    | some text =>
        rw [entry] at found
        exact source_of_text rejected (Files.readText_of_text found)

theorem Holds.contains_eq (holds : Holds system base entries)
    (valid : ∀ entry ∈ entries, ¬IsRejected entry.1) (lookedUp : IsLookup base id) :
    contains system.files base id = (entries.lookup id).isSome := by
  by_cases rejected : IsRejected id
  · rw [contains_of_rejected rejected, lookup_of_rejected valid rejected]
    rfl
  · have found := FileSystem.files_eq_map_tree? system (join base (fileName id))
    rw [holds.tree?_join rejected lookedUp] at found
    rw [contains, path?_of_accepted rejected]
    cases entry : entries.lookup id <;>
      · rw [entry] at found
        simp only [Files.isFile, found, Except.map, FileTree.toEntry]
        rfl

end Files

/-! ## Documents -/

theorem collectGlyphs_congr {left right : Catalog} {placements : List Placement}
    (same : ∀ placement ∈ placements, left.source placement.glyph = right.source placement.glyph)
    (table : GlyphTable) (collector : Collector) :
    collectGlyphs left table collector placements =
      collectGlyphs right table collector placements := by
  induction placements generalizing table collector with
  | nil => rfl
  | cons placement rest ih =>
      rw [List.forall_mem_cons] at same
      cases known : table.lookup placement.glyph with
      | some groups =>
          rw [collectGlyphs_of_known known, collectGlyphs_of_known known]
          exact ih same.2 table collector
      | none =>
          have sameLookUp : Planning.lookUp left placement.glyph =
              Planning.lookUp right placement.glyph := by
            rw [Planning.lookUp, Planning.lookUp, same.1]
          rw [collectGlyphs_of_unknown known, collectGlyphs_of_unknown known, sameLookUp]
          simp only [ih same.2]

/-- A document is planned alike from catalogs with the same sources for its glyphs. -/
theorem prepare_congr {left right : Catalog} {spec : DocumentSpec}
    (same : ∀ placement ∈ spec.placements,
      left.source placement.glyph = right.source placement.glyph) :
    DocumentPlan.prepare left spec = DocumentPlan.prepare right spec := by
  simp only [DocumentPlan.prepare, DocumentPlan.planning, collectGlyphs_congr same]

/-- A directory with the files of some entries and the same entries in memory give the same answers,
and documents are planned alike from both. -/
theorem interchangeable {system : FileSystem} {base : String} {entries : List (String × String)}
    (distinct : (entries.map Prod.fst).Nodup)
    (valid : ∀ entry ∈ entries, ¬IsRejected entry.1) (holds : Holds system base entries) :
    (∀ id, IsLookup base id →
      (catalog system.files base).source id = (MemoryCatalog.ofEntries entries).catalog.source id ∧
        (catalog system.files base).contains id =
          (MemoryCatalog.ofEntries entries).catalog.contains id) ∧
    ∀ spec : DocumentSpec, (∀ placement ∈ spec.placements, IsLookup base placement.glyph) →
      DocumentPlan.prepare (catalog system.files base) spec =
        DocumentPlan.prepare (MemoryCatalog.ofEntries entries).catalog spec := by
  have sameSource : ∀ id, IsLookup base id →
      (catalog system.files base).source id =
        (MemoryCatalog.ofEntries entries).catalog.source id := by
    intro id lookedUp
    change source system.files base id =
      match (MemoryCatalog.ofEntries entries).get? id with
      | some text => .ok text
      | none => .error (.unknownGlyph id)
    rw [holds.source_eq valid lookedUp, MemoryCatalog.get?_ofEntries distinct]
  refine ⟨?_, ?_⟩
  · intro id lookedUp
    refine ⟨sameSource id lookedUp, ?_⟩
    change contains system.files base id = ((MemoryCatalog.ofEntries entries).get? id).isSome
    rw [holds.contains_eq valid lookedUp, MemoryCatalog.get?_ofEntries distinct]
  · intro spec lookedUp
    apply prepare_congr
    intro placement placementMem
    exact sameSource placement.glyph (lookedUp placement placementMem)

/-- Two glyphs in memory and in a directory, one of which has an identifier of dots: a path is
unknown to both catalogs, and a document with both glyphs is planned alike. -/
theorem interchangeable_sun :
    (catalog (FileSystem.mk (.directory [("glyphs", .directory
        (glyphFiles [("sun", "<g fill='#fc0'/>"), ("..", "<g/>")]))]) []).files "glyphs").source
        "../sun" =
          (MemoryCatalog.ofEntries [("sun", "<g fill='#fc0'/>"), ("..", "<g/>")]).catalog.source
            "../sun" ∧
      DocumentPlan.prepare
          (catalog (FileSystem.mk (.directory [("glyphs", .directory
            (glyphFiles [("sun", "<g fill='#fc0'/>"), ("..", "<g/>")]))]) []).files "glyphs")
          ⟨[], [], [], [⟨"sun", .identity⟩, ⟨"..", .identity⟩]⟩ =
        DocumentPlan.prepare
          (MemoryCatalog.ofEntries [("sun", "<g fill='#fc0'/>"), ("..", "<g/>")]).catalog
          ⟨[], [], [], [⟨"sun", .identity⟩, ⟨"..", .identity⟩]⟩ := by
  have baseSizeLe : "glyphs".utf8ByteSize ≤ 3839 := by decide
  have both := @interchangeable
    (FileSystem.mk (.directory [("glyphs", .directory
      (glyphFiles [("sun", "<g fill='#fc0'/>"), ("..", "<g/>")]))]) [])
    "glyphs" [("sun", "<g fill='#fc0'/>"), ("..", "<g/>")]
    (by decide) (by decide) ⟨_, by rfl, fun _ => rfl⟩
  refine ⟨(both.1 "../sun" ?_).1, both.2 _ ?_⟩
  · exact isLookup_of_base_size_le baseSizeLe (by decide) (by decide)
  · intro placement placementMem
    apply isLookup_of_base_size_le baseSizeLe
    · revert placement placementMem
      decide
    · revert placement placementMem
      decide

/-! ## Paths that are too long -/

theorem source_of_long_path {base id : String} (accepted : ¬IsRejected id)
    (plain : '\x00' ∉ (join base (fileName id)).toList)
    (long : longestPath < (join base (fileName id)).utf8ByteSize) (system : FileSystem) :
    source system.files base id = .error (.loadFailed id FileError.nameTooLong.message) := by
  apply source_of_error accepted _ (by decide)
  exact Files.readText_of_error (files_of_long plain long)

def repeated (character : Char) (count : Nat) : String :=
  String.ofList (List.replicate count character)

theorem eq_of_mem_repeated {character other : Char} {count : Nat}
    (otherMem : other ∈ (repeated character count).toList) : other = character := by
  rw [repeated, String.toList_ofList] at otherMem
  exact List.eq_of_mem_replicate otherMem

theorem utf8ByteSize_repeated {character : Char} (oneByte : character.utf8Size = 1) (count : Nat) :
    (repeated character count).utf8ByteSize = count := by
  induction count with
  | zero => rfl
  | succ count ih =>
      have oneMore : repeated character (count + 1) =
          String.singleton character ++ repeated character count := by
        apply String.toList_inj.mp
        simp [repeated, List.replicate_succ]
      rw [oneMore, String.utf8ByteSize_append, String.utf8ByteSize_singleton, oneByte, ih]
      omega

theorem pathParts_slashes (count : Nat) :
    pathParts (List.replicate count '/') = List.replicate (count + 1) [] := by
  induction count with
  | zero => rfl
  | succ count ih => simp [List.replicate_succ, pathParts, ih]

theorem resolve_empty_parts {tree : FileTree} {names : List String}
    {entries : List (String × FileTree)} (found : tree.get? names = some (.directory entries))
    (count : Nat) : tree.resolve names (List.replicate count "") = .ok names := by
  induction count with
  | zero => rfl
  | succ count ih => simpa [List.replicate_succ, FileTree.resolve, found] using ih

/-- A path to a directory with many slashes at its end. -/
def slashedPath (count : Nat) : String := "glyphs" ++ repeated '/' (count + 1)

theorem toList_slashedPath (count : Nat) :
    (slashedPath count).toList = "glyphs".toList ++ '/' :: List.replicate count '/' := by
  simp [slashedPath, repeated, List.replicate_succ]

theorem utf8ByteSize_slashedPath (count : Nat) : (slashedPath count).utf8ByteSize = count + 7 := by
  have ownSize : "glyphs".utf8ByteSize = 6 := by decide
  rw [slashedPath, String.utf8ByteSize_append, utf8ByteSize_repeated (by decide), ownSize]
  omega

theorem nul_notMem_slashedPath (count : Nat) : '\x00' ∉ (slashedPath count).toList := by
  rw [toList_slashedPath]
  simp

/-- Slashes at the end of the path of a directory change nothing as long as the path is short. -/
theorem baseTree?_slashedPath (entries : List (String × FileTree)) {count : Nat}
    (short : count + 7 ≤ longestPath) :
    (FileSystem.mk (.directory [("glyphs", .directory entries)]) []).baseTree?
        (slashedPath count) = .ok (.directory entries) := by
  have nonempty : slashedPath count ≠ "" := by
    intro empty
    have characters := toList_slashedPath count
    simp [empty] at characters
  have relative : (slashedPath count).toList.head? ≠ some '/' := by
    rw [toList_slashedPath]
    simp
  have namesEq : pathNames (slashedPath count) =
      ["glyphs"] ++ List.replicate (count + 1) "" := by
    have ownParts : pathParts "glyphs".toList = ["glyphs".toList] := by decide
    rw [pathNames, toList_slashedPath, pathParts_append_slash, ownParts, pathParts_slashes]
    simp
  have oneStep : (FileTree.directory [("glyphs", .directory entries)]).resolve [] ["glyphs"] =
      .ok ["glyphs"] := by rfl
  have found : (FileTree.directory [("glyphs", .directory entries)]).get? ["glyphs"] =
      some (.directory entries) := by rfl
  rw [FileSystem.baseTree?, if_neg nonempty,
    FileSystem.tree?_of_short (nul_notMem_slashedPath count) nonempty
      (by rw [utf8ByteSize_slashedPath]; exact short),
    namesEq, FileTree.resolve_append, FileSystem.start, if_neg relative, oneStep]
  simp only [Except.bind, resolve_empty_parts found, FileTree.reach, found]

def letters (count : Nat) : String := repeated 'a' count

theorem utf8ByteSize_letters (count : Nat) : (letters count).utf8ByteSize = count :=
  utf8ByteSize_repeated (by decide) count

theorem nul_notMem_letters (count : Nat) : '\x00' ∉ (letters count).toList := by
  intro nul
  exact absurd (eq_of_mem_repeated nul) (by decide)

theorem not_isRejected_letters {count : Nat} (positive : 0 < count) :
    ¬IsRejected (letters count) := by
  rintro (empty | slash | backslash)
  · have sizeEq := utf8ByteSize_letters count
    rw [empty, String.utf8ByteSize_empty] at sizeEq
    omega
  · exact absurd (eq_of_mem_repeated slash) (by decide)
  · exact absurd (eq_of_mem_repeated backslash) (by decide)

theorem exists_id_of_size {size : Nat} (positive : 0 < size) :
    ∃ id : String, ¬IsRejected id ∧ '\x00' ∉ id.toList ∧ id.utf8ByteSize = size :=
  ⟨letters size, not_isRejected_letters positive, nul_notMem_letters size,
    utf8ByteSize_letters size⟩

/-- A long path to a directory hides a file from the file system that memory has an entry for: the
path of the directory has 3906 bytes, and the path of the file has 4161. -/
theorem not_interchangeable_by_long_path :
    ¬∀ (system : FileSystem) (base : String) (entries : List (String × String)),
      (entries.map Prod.fst).Nodup →
      (∀ entry ∈ entries, ¬IsRejected entry.1 ∧ '\x00' ∉ entry.1.toList ∧
        entry.1.utf8ByteSize ≤ 251) →
      Holds system base entries →
      ∀ id, '\x00' ∉ id.toList → id.utf8ByteSize ≤ 251 →
        (catalog system.files base).source id =
          (MemoryCatalog.ofEntries entries).catalog.source id := by
  intro interchange
  rcases exists_id_of_size (by decide : 0 < 251) with ⟨id, accepted, plain, sizeEq⟩
  have short : id.utf8ByteSize ≤ 251 := Nat.le_of_eq sizeEq
  have held : Holds ⟨.directory [("glyphs", .directory (glyphFiles [(id, "<g/>")]))], []⟩
      (slashedPath 3899) [(id, "<g/>")] :=
    ⟨_, baseTree?_slashedPath _ (by decide), fun _ => rfl⟩
  have valid : ∀ entry ∈ [(id, "<g/>")],
      ¬IsRejected entry.1 ∧ '\x00' ∉ entry.1.toList ∧ entry.1.utf8ByteSize ≤ 251 := by
    intro entry entryMem
    rw [List.mem_singleton.mp entryMem]
    exact ⟨accepted, plain, short⟩
  have same := interchange _ _ _ (by simp) valid held id plain short
  have inMemory : (MemoryCatalog.ofEntries [(id, "<g/>")]).catalog.source id = .ok "<g/>" := by
    simp [MemoryCatalog.catalog, MemoryCatalog.get?_ofEntries]
  have pathPlain : '\x00' ∉ (join (slashedPath 3899) (fileName id)).toList := by
    rw [mem_join_iff (by decide)]
    simp [fileName, nul_notMem_slashedPath, plain]
  have pathLong : longestPath < (join (slashedPath 3899) (fileName id)).utf8ByteSize := by
    have joinSize := le_utf8ByteSize_join (slashedPath 3899) (fileName id)
    have suffixSize : ".svg".utf8ByteSize = 4 := by decide
    have nameSize : (fileName id).utf8ByteSize = 255 := by
      rw [fileName, String.utf8ByteSize_append, sizeEq, suffixSize]
    rw [utf8ByteSize_slashedPath, nameSize] at joinSize
    exact Nat.lt_of_lt_of_le (by decide) joinSize
  rw [inMemory] at same
  change source _ _ _ = _ at same
  rw [source_of_long_path accepted pathPlain pathLong] at same
  cases same

end DirectoryCatalog

end TikzGlyph
