import TypeAtlas.Proofs.Source.Readers

/-!
# Clean checkouts

A directory of a working tree may hold exactly what a commit holds there: the same files with the same
octets, and no links.  It is then found to have the same files as the revision, in the same order and
under the same paths, and the same files are left out as they are no texts.

Only the texts may differ: those of the directory have unified line ends, and those of the revision
have not.  So the two readings are the same if no file has a carriage return, and only then
(`Checkout.walk_and_filesAt`).
-/

namespace TypeAtlas

/-! ## The commit below a directory -/

/-- The files of a commit, with their paths. -/
def Commit.files (commit : Commit) : List (String × List UInt8) :=
  (commit.entries.filter fun entry => entry.kind = .blob).map fun entry =>
    (entry.path, entry.octets)

/-- The files of a commit are those below some entries, in any order. -/
def Commit.Lists (commit : Commit) (entries : List (String × FileTree)) : Prop :=
  commit.files.Perm ((FileTree.directory entries).allLeaves.map fun leaf =>
    (Text.join "/" leaf.1, leaf.2.octets))

namespace History

variable {base names : List String}

theorem basePath_of_ne_nil (hbase : base ≠ []) : basePath base = Text.join "/" base ++ "/" := by
  rw [basePath, if_neg]
  rwa [List.isEmpty_iff]

theorem basePath_append (base : List String) (hnames : names ≠ []) :
    basePath base ++ Text.join "/" names = Text.join "/" (base ++ names) := by
  by_cases hbase : base = []
  · subst hbase
    exact String.empty_append
  · rw [basePath_of_ne_nil hbase, Text.join_append hbase hnames]

/-- Whether a path leads below a directory can be told from the texts of both, since only names are
between the slashes. -/
theorem startsWith_basePath_iff (hbase : ∀ name ∈ base, Path.IsName name)
    (hnames : ∀ name ∈ names, Path.IsName name) (hne : names ≠ []) :
    Text.startsWith (Text.join "/" names) (basePath base) = true ↔
      ∃ rest, rest ≠ [] ∧ names = base ++ rest := by
  rw [Text.startsWith, List.isPrefixOf_iff_prefix]
  constructor
  · rintro ⟨tail, htail⟩
    by_cases hempty : base = []
    · exact ⟨names, hne, by rw [hempty, List.nil_append]⟩
    · have hpath : Text.join "/" base ++ "/" ++ String.ofList tail = Text.join "/" names := by
        rw [← String.toList_inj, ← htail, basePath_of_ne_nil hempty, String.toList_append,
          String.toList_ofList]
      refine ⟨Text.split '/' (String.ofList tail), Text.split_ne_nil _ _, ?_⟩
      calc names
          = Text.split '/' (Text.join "/" names) :=
            (Text.split_join hne fun name hname => (hnames name hname).no_slash).symm
        _ = base ++ Text.split '/' (String.ofList tail) := by
            rw [← hpath,
              Text.split_join_append hempty fun name hname => (hbase name hname).no_slash]
  · rintro ⟨rest, hrest, rfl⟩
    rw [← basePath_append base hrest, String.toList_append]
    exact List.prefix_append _ _

/-- The file at a leaf of a tree, if a directory is asked for that is not the leaf itself. -/
theorem textBelow?_file {history : History} (hhistory : history.base = basePath base)
    (hbase : ∀ name ∈ base, Path.IsName name) (hnames : ∀ name ∈ names, Path.IsName name)
    (hne : names ≠ []) (hnot : names ≠ base) (octets : List UInt8) :
    history.textBelow? ⟨Text.join "/" names, .blob, octets⟩ =
      (Location.below? base names).map fun rest => (Text.join "/" rest, Utf8.decode? octets) := by
  rw [textBelow?, hhistory]
  by_cases hbelow : ∃ rest, rest ≠ [] ∧ names = base ++ rest
  · have hstarts := (startsWith_basePath_iff hbase hnames hne).mpr hbelow
    obtain ⟨rest, hrest, rfl⟩ := hbelow
    have hdrop : String.ofList ((Text.join "/" (base ++ rest)).toList.drop (basePath base).length) =
        Text.join "/" rest := by
      rw [← basePath_append base hrest, String.toList_append, ← String.length_toList,
        List.drop_left, String.ofList_toList]
    have hfound : Location.below? base (base ++ rest) = some rest := by
      simp [Location.below?]
    simp only [hstarts, hdrop, hfound, decide_true, Bool.and_self, if_true, Option.map_some]
  · have hstarts : Text.startsWith (Text.join "/" names) (basePath base) = false := by
      rw [Bool.eq_false_iff]
      exact fun hstarts => hbelow ((startsWith_basePath_iff hbase hnames hne).mp hstarts)
    have hprefix : base.isPrefixOf names = false := by
      rw [Bool.eq_false_iff]
      intro hprefix
      obtain ⟨rest, rfl⟩ := List.isPrefixOf_iff_prefix.mp hprefix
      refine hbelow ⟨rest, ?_, rfl⟩
      rintro rfl
      exact hnot (List.append_nil base)
    simp only [hstarts, Bool.and_false, Bool.false_eq_true, if_false, Location.below?, hprefix,
      Option.map_none]

end History

/-- Only the files of a commit are read. -/
theorem Commit.filterMap_entries (commit : Commit) (history : History) :
    commit.entries.filterMap history.textBelow? =
      commit.files.filterMap fun file => history.textBelow? ⟨file.1, .blob, file.2⟩ := by
  rw [files, List.filterMap_map, List.filterMap_filter]
  apply List.filterMap_congr
  intro entry _
  obtain ⟨path, kind, octets⟩ := entry
  by_cases hkind : kind = .blob
  · subst hkind
    rfl
  · simp only [History.textBelow?, hkind, decide_false, Bool.false_and, Bool.false_eq_true, if_false]

/-- What a history reads of a commit is what the commit has below the directory. -/
theorem Commit.Lists.perm_texts {commit : Commit} {root held : List (String × FileTree)}
    (hlists : commit.Lists root) (hplain : (FileTree.directory root).IsPlain) {base : Location}
    (hheld : (FileTree.directory root).at? base = .ok (.directory held)) {history : History}
    (hhistory : history.base = History.basePath base) :
    (commit.entries.filterMap history.textBelow?).Perm
      ((FileTree.directory held).allLeaves.map FileTree.textOfLeaf) := by
  obtain ⟨-, hbase, hleaves⟩ := hplain.at_spec hheld
  have hnot : ∀ leaf ∈ (FileTree.directory root).allLeaves, leaf.1 ≠ base := by
    rintro leaf hleaf rfl
    -- A file in the place of the directory would be a leaf of it without a name.
    have hmem : ([], leaf.2) ∈ (FileTree.directory held).allLeaves := by
      rw [← hleaves]
      exact List.mem_filterMap.mpr ⟨leaf, hleaf, by simp [Location.below?]⟩
    exact FileTree.ne_nil_of_mem_leavesIn hmem rfl
  have hread : ((FileTree.directory root).allLeaves.map fun leaf =>
          (Text.join "/" leaf.1, leaf.2.octets)).filterMap
        (fun file => history.textBelow? ⟨file.1, .blob, file.2⟩) =
      (FileTree.leavesFrom base (FileTree.directory root).allLeaves).map FileTree.textOfLeaf := by
    rw [List.filterMap_map, FileTree.leavesFrom, List.map_filterMap]
    apply List.filterMap_congr
    intro leaf hleaf
    have hnames := (hplain.leaf_spec leaf hleaf).2
    have hne : leaf.1 ≠ [] := FileTree.ne_nil_of_mem_leavesIn hleaf
    rw [Function.comp_apply, History.textBelow?_file hhistory hbase hnames hne (hnot leaf hleaf),
      Option.map_map]
    rfl
  rw [commit.filterMap_entries, ← hleaves, ← hread]
  exact hlists.filterMap _

/-! ## Checkouts -/

/-- A directory of a working tree that holds the same files as a commit, with the same octets, and no
links.  The directory may list its entries in another order, and hold empty directories besides. -/
structure Checkout where
  disk : Disk
  /-- The path of the directory, and what the directory holds. -/
  path : String
  entries : List (String × FileTree)
  repository : Repository
  worktree : String
  /-- Where the working tree is, and how the directory is reached from there. -/
  top : Location
  base : Location
  ref : String
  commit : Commit
  /-- What the commit holds, and what it holds in the place of the directory. -/
  root : List (String × FileTree)
  held : List (String × FileTree)
  resolve_path : disk.resolve path = .ok (top ++ base)
  resolve_worktree : disk.resolve worktree = .ok top
  directory_entries : disk.directory? (top ++ base) = some entries
  repository_worktree : repository.worktree = some worktree
  revision_ref : repository.revision ref = .commit commit
  lists : commit.Lists root
  root_at : (FileTree.directory root).at? base = .ok (.directory held)
  isPlain_root : (FileTree.directory root).IsPlain
  isPlain_entries : (FileTree.directory entries).IsPlain
  same_files : (FileTree.directory entries).allLeaves.Perm (FileTree.directory held).allLeaves

namespace Checkout

variable (checkout : Checkout) {extensions : List String} (ignored : List String)

/-- The history of the directory. -/
def history : History := ⟨some checkout.repository, History.basePath checkout.base⟩

/-- The files that a scan takes, with their texts as they are. -/
def files (extensions ignored : List String) : List SourceFile :=
  SourceFile.select extensions ignored
    ((FileTree.directory checkout.entries).allLeaves.map FileTree.textOfLeaf)

theorem value_ofDirectory :
    (History.ofDirectory checkout.disk checkout.path (some checkout.repository)).value =
      .ok checkout.history := by
  have hbelow : Location.below? checkout.top (checkout.top ++ checkout.base) =
      some checkout.base := by
    simp [Location.below?]
  simp only [History.ofDirectory, checkout.resolve_path, checkout.repository_worktree,
    checkout.resolve_worktree, hbelow]
  rfl

theorem value_walk (hextensions : ∀ extension ∈ extensions, '/' ∉ extension.toList) :
    (checkout.disk.walk checkout.path extensions ignored).value =
      .ok ((checkout.files extensions ignored).map SourceFile.unified) := by
  have hopen : checkout.disk.open? (checkout.top ++ checkout.base) =
      .ok (checkout.top ++ checkout.base, checkout.entries) := by
    rw [Disk.open?, checkout.directory_entries]
  rw [Disk.walk, checkout.resolve_path]
  simp only [hopen, Logged.value_bind, Logged.value_pure]
  rw [Disk.value_walkFrom checkout.disk _ _ checkout.isPlain_entries hextensions]
  rfl

theorem value_filesAt :
    (checkout.history.filesAt checkout.ref extensions ignored).value =
      .ok (checkout.files extensions ignored) := by
  have hperm : (checkout.commit.entries.filterMap checkout.history.textBelow?).Perm
      ((FileTree.directory checkout.entries).allLeaves.map FileTree.textOfLeaf) :=
    (checkout.lists.perm_texts checkout.isPlain_root checkout.root_at rfl).trans
      (checkout.same_files.map FileTree.textOfLeaf).symm
  have hpaths : ∀ entry ∈ checkout.commit.entries, ∀ item ∈ checkout.history.textBelow? entry,
      item.1 ≠ "" := by
    intro entry hentry item hitem
    have hmem := hperm.mem_iff.mp (List.mem_filterMap.mpr ⟨entry, hentry, hitem⟩)
    obtain ⟨leaf, hleaf, rfl⟩ := List.mem_map.mp hmem
    exact Text.join_ne_empty (FileTree.ne_nil_of_mem_leavesIn hleaf) fun name hname =>
      ((checkout.isPlain_entries.leaf_spec leaf hleaf).2 name hname).ne_empty
  rw [History.value_filesAt rfl checkout.revision_ref hpaths, files]
  -- No two files have one path, so the order of the entries does not show.
  congr 1
  symm
  exact SourceFile.select_of_perm hperm.symm (FileTree.nodup_texts checkout.isPlain_entries)

/-- **A directory and a revision of the same content.**  Both readings return, with the same files in
the same order: those with a wanted extension and in no ignored directory whose octets are a text.
The texts are the same if there is no carriage return in them, and only then. -/
theorem walk_and_filesAt (hextensions : ∀ extension ∈ extensions, '/' ∉ extension.toList) :
    ∃ history files,
      (History.ofDirectory checkout.disk checkout.path (some checkout.repository)).value =
        .ok history ∧
      (history.filesAt checkout.ref extensions ignored).value = .ok files ∧
      (checkout.disk.walk checkout.path extensions ignored).value =
        .ok (files.map SourceFile.unified) ∧
      (files.map SourceFile.unified = files ↔ ∀ file ∈ files, '\r' ∉ file.content.toList) ∧
      ∀ file : SourceFile, file ∈ files ↔
        ∃ names octets, (names, .file octets) ∈ (FileTree.directory checkout.entries).allLeaves ∧
          file.path = Text.join "/" names ∧ Utf8.decode? octets = some file.content ∧
          hasExtension (names.getLastD "") extensions = true ∧
          ∀ name ∈ names.dropLast, name ∉ ignored := by
  refine ⟨checkout.history, checkout.files extensions ignored, checkout.value_ofDirectory,
    checkout.value_filesAt ignored, checkout.value_walk ignored hextensions, ?_, ?_⟩
  · exact SourceFile.map_unified_eq_self_iff
  · exact fun file => FileTree.mem_select_leaves checkout.isPlain_entries hextensions

/-- A directory with one file, whose line ends with a carriage return and a newline. -/
def exampleDirectory : FileTree := .directory [("B.go", .file [98, 13, 10])]

/-- A file that is no text. -/
def exampleFile : FileTree := .file [0xFF]

/-- What the commit of the example holds below its one directory. -/
def exampleHeld : List (String × FileTree) := [("b", exampleDirectory), ("A.go", exampleFile)]

/-- What stands there on disk. -/
def exampleEntries : List (String × FileTree) := [("A.go", exampleFile), ("b", exampleDirectory)]

theorem isPlain_exampleDirectory : exampleDirectory.IsPlain :=
  .directory (by decide) (by decide) (List.forall_mem_singleton.mpr (.file _))

theorem isPlain_exampleHeld : (FileTree.directory exampleHeld).IsPlain :=
  .directory (by decide) (by decide)
    (List.forall_mem_cons.mpr ⟨isPlain_exampleDirectory, List.forall_mem_singleton.mpr (.file _)⟩)

theorem isPlain_exampleEntries : (FileTree.directory exampleEntries).IsPlain :=
  .directory (by decide) (by decide)
    (List.forall_mem_cons.mpr ⟨.file _, List.forall_mem_singleton.mpr isPlain_exampleDirectory⟩)

/-- The disk of the example has nothing but a working tree. -/
def exampleDisk : Disk := { tree := .directory [("app", .directory exampleEntries)] }

theorem isPlain_exampleDisk : exampleDisk.tree.IsPlain :=
  .directory (by decide) (by decide) (List.forall_mem_singleton.mpr isPlain_exampleEntries)

def exampleCommit : Commit where
  sha := "1f"
  entries := [⟨"app", .tree, []⟩, ⟨"app/A.go", .blob, [0xFF]⟩, ⟨"app/b", .tree, []⟩,
    ⟨"app/b/B.go", .blob, [98, 13, 10]⟩]

/-- A directory of the working tree that is as it was committed. -/
def exampleCheckout : Checkout where
  disk := exampleDisk
  path := "/app"
  entries := exampleEntries
  repository := { worktree := some "/", refs := [("HEAD", .commit exampleCommit)] }
  worktree := "/"
  top := []
  base := ["app"]
  ref := "HEAD"
  commit := exampleCommit
  root := [("app", .directory exampleHeld)]
  held := exampleHeld
  resolve_path := Disk.resolve_of_isPlain isPlain_exampleDisk (by decide)
  resolve_worktree := Disk.resolve_of_isPlain isPlain_exampleDisk (by decide)
  directory_entries := rfl
  repository_worktree := rfl
  revision_ref := rfl
  lists := by
    unfold Commit.Lists
    decide
  root_at := rfl
  isPlain_root :=
    .directory (by decide) (by decide) (List.forall_mem_singleton.mpr isPlain_exampleHeld)
  isPlain_entries := isPlain_exampleEntries
  same_files := List.Perm.swap _ _ _

/-- The file of the example that is a text. -/
def exampleText : SourceFile := ⟨"b/B.go", "b\r\n", by decide⟩

theorem walk_and_filesAt_exampleCheckout :
    (∀ extension ∈ [".go"], '/' ∉ extension.toList) ∧
      ∃ history files,
        (History.ofDirectory exampleDisk "/app" (some exampleCheckout.repository)).value =
          .ok history ∧
        (history.filesAt "HEAD" [".go"] ["vendor"]).value = .ok files ∧ exampleText ∈ files ∧
        (exampleDisk.walk "/app" [".go"] ["vendor"]).value =
          .ok (files.map SourceFile.unified) := by
  have hextensions : ∀ extension ∈ [".go"], '/' ∉ extension.toList := by decide
  obtain ⟨history, files, hhistory, hfiles, hwalk, -, hmem⟩ :=
    exampleCheckout.walk_and_filesAt ["vendor"] hextensions
  have htext : exampleText ∈ files := (hmem exampleText).mpr
    ⟨["b", "B.go"], [98, 13, 10], List.mem_cons_of_mem _ List.mem_cons_self, rfl, by decide,
      by decide, by decide⟩
  exact ⟨hextensions, history, files, hhistory, hfiles, htext, hwalk⟩

/-- A directory that is as it was committed may be read in another way than the revision. -/
theorem exampleCheckout_read_apart :
    ∃ history,
      (History.ofDirectory exampleDisk "/app" (some exampleCheckout.repository)).value =
        .ok history ∧
      (exampleDisk.walk "/app" [".go"] []).value ≠ (history.filesAt "HEAD" [".go"] []).value := by
  refine ⟨exampleCheckout.history, exampleCheckout.value_ofDirectory, ?_⟩
  intro hsame
  have hextensions : ∀ extension ∈ [".go"], '/' ∉ extension.toList := by decide
  have hread : (exampleCheckout.files [".go"] []).map SourceFile.unified =
      exampleCheckout.files [".go"] [] :=
    Except.ok.inj (((exampleCheckout.value_walk [] hextensions).symm.trans hsame).trans
      (exampleCheckout.value_filesAt []))
  have htext : exampleText ∈ exampleCheckout.files [".go"] [] :=
    (FileTree.mem_select_leaves exampleCheckout.isPlain_entries hextensions).mpr
      ⟨["b", "B.go"], [98, 13, 10], List.mem_cons_of_mem _ List.mem_cons_self, rfl, by decide,
        by decide, by decide⟩
  exact SourceFile.map_unified_eq_self_iff.mp hread exampleText htext (by decide)

end Checkout
end TypeAtlas
