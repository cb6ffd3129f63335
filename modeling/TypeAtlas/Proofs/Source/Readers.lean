import TypeAtlas.Proofs.Source.Leaves
import TypeAtlas.Proofs.Source.Selection
import TypeAtlas.Source.History

/-!
# What a directory and a revision are read as

A directory is walked with the names on the way in hand, and no ignored directory is gone into.  A
revision is a list of entries, and each is judged by its path alone.  Both give the files that
`SourceFile.select` makes of some paths with their texts.

For a directory (`Disk.value_walkFrom`) the paths are those of all leaves, and line ends are unified.
For a revision (`History.value_filesAt`) they are what is left of the paths of the entries below the
directory, and texts are as they are.
-/

namespace TypeAtlas

/-- The text with unified line ends, as a file of a directory is read. -/
def Text.unified (text : String) : String := String.ofList (unifyLineEnds text.toList)

/-- The file with unified line ends. -/
def SourceFile.unified : SourceFile → SourceFile := mapContent Text.unified

theorem Text.unified_eq_self_iff {text : String} : unified text = text ↔ '\r' ∉ text.toList := by
  rw [← unifyLineEnds_eq_self_iff, unified, ← String.toList_inj, String.toList_ofList]

theorem SourceFile.unified_eq_self_iff {file : SourceFile} :
    file.unified = file ↔ '\r' ∉ file.content.toList := by
  rw [← Text.unified_eq_self_iff]
  obtain ⟨path, content, hpath⟩ := file
  rw [unified, mapContent, SourceFile.mk.injEq]
  exact ⟨fun hsame => hsame.2, fun hsame => ⟨rfl, hsame⟩⟩

theorem SourceFile.map_unified_eq_self_iff {files : List SourceFile} :
    files.map unified = files ↔ ∀ file ∈ files, '\r' ∉ file.content.toList := by
  induction files with
  | nil => exact ⟨nofun, fun _ => rfl⟩
  | cons file files ih =>
      rw [List.map_cons, List.cons.injEq, unified_eq_self_iff, ih, List.forall_mem_cons]

/-! ## Directories -/

namespace FileTree

/-- The octets of a file. -/
def octets : FileTree → List UInt8
  | file octets => octets
  | _ => []

/-- The path of a leaf and the text of the file there, as it is. -/
def textOfLeaf (leaf : List String × FileTree) : String × Option String :=
  (Text.join "/" leaf.1, Utf8.decode? leaf.2.octets)

variable {entries : List (String × FileTree)} {extensions ignored : List String}

theorem nodup_texts (hplain : (directory entries).IsPlain) :
    (((directory entries).allLeaves.map textOfLeaf).map Prod.fst).Nodup := by
  rw [List.map_map, List.Nodup, List.pairwise_map]
  apply (List.pairwise_map.mp hplain.nodup_leaves).imp_of_mem
  intro leaf other hleaf hother hdiffer hsame
  have hsplit : ∀ leaf ∈ (directory entries).allLeaves,
      Text.split '/' (Text.join "/" leaf.1) = leaf.1 := by
    intro leaf hleaf
    exact Text.split_join (ne_nil_of_mem_leavesIn hleaf) fun name hname =>
      ((hplain.leaf_spec leaf hleaf).2 name hname).no_slash
  apply hdiffer
  calc leaf.1
      = Text.split '/' (Text.join "/" leaf.1) := (hsplit leaf hleaf).symm
    _ = Text.split '/' (Text.join "/" other.1) := congrArg (Text.split '/') hsame
    _ = other.1 := hsplit other hother

/-- A scan makes a file of each leaf with a wanted name, in no ignored directory, that is a text. -/
theorem mem_select_leaves (hplain : (directory entries).IsPlain)
    (hextensions : ∀ extension ∈ extensions, '/' ∉ extension.toList) {file : SourceFile} :
    file ∈ SourceFile.select extensions ignored ((directory entries).allLeaves.map textOfLeaf) ↔
      ∃ names octets, (names, .file octets) ∈ (directory entries).allLeaves ∧
        file.path = Text.join "/" names ∧ Utf8.decode? octets = some file.content ∧
        hasExtension (names.getLastD "") extensions = true ∧
        ∀ name ∈ names.dropLast, name ∉ ignored := by
  -- A leaf is taken by its path as it is by its names.
  have hwanted : ∀ leaf ∈ (directory entries).allLeaves,
      (hasExtension (Text.join "/" leaf.1) extensions =
          hasExtension (leaf.1.getLastD "") extensions) ∧
        (isIgnored (Text.join "/" leaf.1) ignored = false ↔
          ∀ name ∈ leaf.1.dropLast, name ∉ ignored) := by
    intro leaf hleaf
    have hne : leaf.1 ≠ [] := ne_nil_of_mem_leavesIn hleaf
    have hnames := (hplain.leaf_spec leaf hleaf).2
    exact ⟨hasExtension_join hextensions hne,
      isIgnored_join_eq_false_iff hne fun name hname => (hnames name hname).no_slash⟩
  rw [SourceFile.mem_select, List.mem_map]
  constructor
  · rintro ⟨⟨leaf, hleaf, hitem⟩, hextension, hplace⟩
    obtain ⟨⟨octets, hoctets⟩, -⟩ := hplain.leaf_spec leaf hleaf
    obtain ⟨names, tree⟩ := leaf
    obtain rfl : tree = .file octets := hoctets
    obtain ⟨hpath, hcontent⟩ := Prod.mk.inj hitem
    obtain ⟨hname, hreached⟩ := hwanted _ hleaf
    rw [← hpath] at hextension hplace
    exact ⟨names, octets, hleaf, hpath.symm, hcontent, hname ▸ hextension, hreached.mp hplace⟩
  · rintro ⟨names, octets, hleaf, hpath, hcontent, hextension, hplace⟩
    obtain ⟨hname, hreached⟩ := hwanted _ hleaf
    rw [hpath]
    refine ⟨⟨_, hleaf, ?_⟩, hname ▸ hextension, hreached.mpr hplace⟩
    exact Prod.ext rfl hcontent

end FileTree

theorem textOfFile_ok (octets : List UInt8) :
    textOfFile (.ok octets) =
      match Utf8.decode? octets with
      | none => .error (.undecodable (Utf8.faultMessage octets))
      | some text => .ok (Text.unified text) := rfl

namespace Disk

variable {disk : Disk} {directory named : Location} {extensions ignored : List String}

theorem value_readFile? (names : List String) (octets : List UInt8) :
    (disk.readFile? directory named (names, .file octets)).value =
      ((Utf8.decode? octets).map Text.unified).bind fun content =>
        (SourceFile.make (Text.join "/" names) content).toOption := by
  rw [readFile?, readLeaf, textOfFile_ok]
  cases Utf8.decode? octets <;> rfl

theorem isFileLeaf_file (names : List String) (octets : List UInt8) :
    disk.isFileLeaf directory (names, .file octets) = true := rfl

/-- What is made of a file of a directory. -/
theorem readFile?_eq_take? (hextensions : ∀ extension ∈ extensions, '/' ∉ extension.toList)
    {names : List String} (hne : names ≠ []) (hnames : ∀ name ∈ names, Path.IsName name)
    (octets : List UInt8) :
    (if FileTree.isReached ignored.contains (names, .file octets) &&
        (hasExtension (names.getLastD "") extensions &&
          disk.isFileLeaf directory (names, .file octets)) then
      (disk.readFile? directory named (names, .file octets)).value else none) =
    SourceFile.take? extensions ignored (Text.join "/" names)
      ((Utf8.decode? octets).map Text.unified) := by
  have hplace : FileTree.isReached ignored.contains (names, .file octets) =
      !isIgnored (Text.join "/" names) ignored := by
    rw [FileTree.isReached, isIgnored_join hne fun name hname => (hnames name hname).no_slash]
  rw [hplace, isFileLeaf_file, Bool.and_true, ← hasExtension_join hextensions hne, value_readFile?,
    SourceFile.take?, Bool.and_comm]

/-- A directory is read as what its leaves are read as, each for itself. -/
theorem value_walkFrom_eq_sort (disk : Disk) (directory named : Location)
    (entries : List (String × FileTree)) (extensions ignored : List String) :
    (disk.walkFrom directory named entries extensions ignored).value =
      SourceFile.sort ((disk.wantedLeaves directory entries extensions ignored).filterMap
        fun leaf => (disk.readFile? directory named leaf).value) := by
  have hleaves : (disk.wantedLeaves directory entries extensions ignored).filterMap
        (fun leaf => (disk.readFile? directory named leaf).value) =
      ((disk.wantedLeaves directory entries extensions ignored).map fun leaf =>
        (disk.readFile? directory named leaf).value).filterMap id := by
    rw [List.filterMap_map]
    rfl
  rw [hleaves, ← Logged.value_mapM]
  rfl

theorem value_walkFrom (disk : Disk) (directory named : Location)
    {entries : List (String × FileTree)} (hplain : (FileTree.directory entries).IsPlain)
    (hextensions : ∀ extension ∈ extensions, '/' ∉ extension.toList) (ignored : List String) :
    (disk.walkFrom directory named entries extensions ignored).value =
      (SourceFile.select extensions ignored
        ((FileTree.directory entries).allLeaves.map FileTree.textOfLeaf)).map
          SourceFile.unified := by
  have hfiles : (disk.wantedLeaves directory entries extensions ignored).filterMap
        (fun leaf => (disk.readFile? directory named leaf).value) =
      (FileTree.directory entries).allLeaves.filterMap fun leaf =>
        SourceFile.take? extensions ignored (Text.join "/" leaf.1)
          ((Utf8.decode? leaf.2.octets).map Text.unified) := by
    rw [wantedLeaves, FileTree.leavesIn_eq_filter, List.filter_filter, List.filterMap_filter]
    apply List.filterMap_congr
    intro leaf hleaf
    obtain ⟨names, tree⟩ := leaf
    obtain ⟨⟨octets, rfl⟩, hnames⟩ := hplain.leaf_spec _ hleaf
    rw [Bool.and_comm]
    exact readFile?_eq_take? hextensions (FileTree.ne_nil_of_mem_leavesIn hleaf) hnames octets
  rw [value_walkFrom_eq_sort, hfiles, SourceFile.unified, ← SourceFile.select_map, SourceFile.select,
    List.filterMap_map, List.filterMap_map]
  rfl

/-! ### Places -/

theorem link?_of_isPlain (hplain : disk.tree.IsPlain) (location : Location) :
    disk.link? location = none := by
  rw [link?, at?]
  cases hfound : disk.tree.at? location with
  | error fault => rfl
  | ok found =>
      obtain ⟨hfoundPlain, -, -⟩ := hplain.at_spec hfound
      cases hfoundPlain <;> rfl

theorem followFrom_of_isPlain (hplain : disk.tree.IsPlain) (links : List Named) (here : Named)
    (segments : List String) :
    disk.followFrom links here segments = .ok { here with place := here.place.along segments } := by
  induction segments generalizing here with
  | nil => rw [followFrom, Location.along]
  | cons segment rest ih =>
      rw [followFrom, Location.along, link?_of_isPlain hplain]
      simp only [ih]
      by_cases hempty : segment = "" ∨ segment = "."
      · rw [if_pos hempty, if_pos hempty]
      · rw [if_neg hempty, if_neg hempty]
        by_cases hback : segment = ".."
        · rw [if_pos hback, if_pos hback]
          rfl
        · rw [if_neg hback, if_neg hback]
          rfl

/-- Without links, a path leads where its segments say. -/
theorem resolve_of_isPlain (hplain : disk.tree.IsPlain) {path : String}
    (hzero : Path.hasZero path = false) :
    disk.resolve path = .ok ((startFrom disk.home path).along (Path.segments path)) := by
  rw [resolve, hzero, followFrom_of_isPlain hplain]
  simp only [Bool.false_eq_true, if_false, Named.start, startFrom]
  split <;> rfl
end Disk

/-! ## Revisions -/

namespace History

variable {history : History} {ref : String} {extensions ignored : List String}

/-- The path of an entry from the directory on, and its text, if the entry is a file below the
directory. -/
def textBelow? (history : History) (entry : CommitEntry) : Option (String × Option String) :=
  if entry.kind = .blob && Text.startsWith entry.path history.base then
    some (String.ofList (entry.path.toList.drop history.base.length), Utf8.decode? entry.octets)
  else none

theorem value_readEntry {entry : CommitEntry}
    (hpath : ∀ item ∈ history.textBelow? entry, item.1 ≠ "") :
    (history.readEntry ref extensions ignored entry).value =
      .ok ((history.textBelow? entry).bind fun item =>
        SourceFile.take? extensions ignored item.1 item.2) := by
  by_cases hbelow : (entry.kind = .blob && Text.startsWith entry.path history.base) = true
  · rw [textBelow?, if_pos hbelow] at hpath ⊢
    rw [readEntry, wantedPath?, if_pos hbelow, Option.bind_some]
    have hne : String.ofList (entry.path.toList.drop history.base.length) ≠ "" := hpath _ rfl
    generalize String.ofList (entry.path.toList.drop history.base.length) = path at hne ⊢
    rw [SourceFile.take?]
    cases hwanted : hasExtension path extensions && !isIgnored path ignored with
    | false => simp only [hwanted, Bool.false_eq_true, if_false, Logged.value_pure]
    | true =>
        simp only [hwanted, if_true]
        cases Utf8.decode? entry.octets with
        | none => rfl
        | some content =>
            have hmake : SourceFile.make path content = .ok ⟨path, content, hne⟩ := dif_pos hne
            simp only [Option.bind_some, hmake]
            rfl
  · rw [textBelow?, readEntry, wantedPath?, if_neg hbelow, if_neg hbelow]
    rfl

theorem value_readEntries {entries : List CommitEntry}
    (hpaths : ∀ entry ∈ entries, ∀ item ∈ history.textBelow? entry, item.1 ≠ "") :
    (history.readEntries ref extensions ignored entries).value =
      .ok ((entries.filterMap history.textBelow?).filterMap fun item =>
        SourceFile.take? extensions ignored item.1 item.2) := by
  induction entries with
  | nil => rfl
  | cons entry entries ih =>
      obtain ⟨hpath, hrest⟩ := List.forall_mem_cons.mp hpaths
      rw [readEntries, Logged.value_bind, value_readEntry hpath]
      simp only [Logged.value_bind, ih hrest, Logged.value_pure]
      rw [List.filterMap_cons]
      cases history.textBelow? entry with
      | none => rfl
      | some item =>
          rw [Option.bind_some, List.filterMap_cons]
          cases SourceFile.take? extensions ignored item.1 item.2 <;> rfl

/-- What a revision is read as, if the repository knows it. -/
theorem value_filesAt {repository : Repository} {commit : Commit}
    (hrepository : history.repository = some repository)
    (hrevision : repository.revision ref = .commit commit)
    (hpaths : ∀ entry ∈ commit.entries, ∀ item ∈ history.textBelow? entry, item.1 ≠ "") :
    (history.filesAt ref extensions ignored).value =
      .ok (SourceFile.select extensions ignored
        (commit.entries.filterMap history.textBelow?)) := by
  have hcommit : (history.commit? .info ref).value = .ok (some commit) := by
    rw [commit?, hrepository]
    simp only [hrevision]
    rfl
  rw [filesAt, Logged.value_bind, hcommit]
  simp only [Logged.value_bind, value_readEntries hpaths, Logged.value_pure]
  rfl

end History
end TypeAtlas
