import Mathlib.Data.String.Basic
import TypeAtlas.Proofs.Source.Readers

/-!
# Every wanted file once

Of the files that are found below a directory, in a working tree or at a revision, a scan makes one
source file for each that is wanted, and puts them in the increasing order of their paths
(`SourceFile.TakesEach`).  What is wanted is said with the names on the way from the directory down to a
file, so a prefix of its path does not count.

The result does not show how the files were enumerated.  A working tree may list the entries of each of
its directories in any order (`FileTree.Relisted`), and a commit may hold its entries in any order.  Nor
does it show that a walk keeps out of ignored directories, where a revision is judged path by path: both
leave the same files.  `SourceFile.scans_take_each` puts all of this together.
-/

namespace TypeAtlas

/-! ## The order of paths -/

theorem Text.charsLe_iff {chars others : List Char} :
    charsLe chars others = true ↔ ¬ others < chars := by
  induction chars generalizing others with
  | nil => simp [charsLe]
  | cons c rest ih =>
      cases others with
      | nil => simp [charsLe]
      | cons d more =>
          rw [charsLe, List.cons_lt_cons_iff, not_or]
          by_cases hsame : c = d
          · subst hsame
            simp [ih]
          · have hnat : c.toNat ≠ d.toNat := fun hnat => hsame (Char.toNat_inj.mp hnat)
            have hlt : d < c ↔ d.toNat < c.toNat := Iff.rfl
            have hother : ¬ d = c := Ne.symm hsame
            simp only [hsame, hother, hlt, if_false, false_and, not_false_eq_true, and_true,
              decide_eq_true_eq]
            omega

/-- Texts are ordered as their characters are, one after the other. -/
theorem Text.le_iff {text other : String} : le text other = true ↔ text ≤ other := by
  rw [le, charsLe_iff, ← String.lt_iff_toList_lt, not_lt]

/-! ## What is wanted -/

namespace SourceFile

/-- What is wanted of a file, which is found by the names on the way to it and has some octets: a name
with one of the extensions, no directory of an ignored name, and a text. -/
structure IsWanted (extensions ignored : List String) (read : List UInt8 → Option String)
    (found : List String × List UInt8) : Prop where
  extension : hasExtension (found.1.getLastD "") extensions = true
  directories : ∀ name ∈ found.1.dropLast, name ∉ ignored
  isText : (read found.2).isSome = true

section

variable {extensions ignored : List String} {read : List UInt8 → Option String}

instance (found : List String × List UInt8) :
    Decidable (IsWanted extensions ignored read found) :=
  decidable_of_iff (hasExtension (found.1.getLastD "") extensions = true ∧
      (∀ name ∈ found.1.dropLast, name ∉ ignored) ∧ (read found.2).isSome = true)
    ⟨fun hall => ⟨hall.1, hall.2.1, hall.2.2⟩, fun hwanted =>
      ⟨hwanted.extension, hwanted.directories, hwanted.isText⟩⟩

/-- **One source file for each file that is wanted**, with its path and its text, and in the increasing
order of paths. -/
structure TakesEach (extensions ignored : List String) (read : List UInt8 → Option String)
    (found : List (List String × List UInt8)) (files : List SourceFile) : Prop where
  each : (files.map fun file => (file.path, some file.content)).Perm
    ((found.filter fun item => IsWanted extensions ignored read item).map fun item =>
      (Text.join "/" item.1, read item.2))
  increasing : files.Pairwise fun file other => file.path < other.path

/-- What is read of files that are found: paths, with texts where there are any. -/
def textsOf (read : List UInt8 → Option String) (found : List (List String × List UInt8)) :
    List (String × Option String) :=
  found.map fun item => (Text.join "/" item.1, read item.2)

/-- Names that lead to a file: there are some, none of them has a slash in it, and they make a path. -/
structure LeadsToFile (names : List String) : Prop where
  ne_nil : names ≠ []
  no_slash : ∀ name ∈ names, '/' ∉ name.toList
  path_ne : Text.join "/" names ≠ ""

theorem leadsToFile_of_isName {names : List String} (hnames : names ≠ [])
    (hname : ∀ name ∈ names, Path.IsName name) : LeadsToFile names where
  ne_nil := hnames
  no_slash name hmem := (hname name hmem).no_slash
  path_ne := Text.join_ne_empty hnames fun name hmem => (hname name hmem).ne_empty

theorem leadsToFile_split {path : String} (hpath : path ≠ "") :
    LeadsToFile (Text.split '/' path) where
  ne_nil := Text.split_ne_nil '/' path
  no_slash _ := Text.no_slash_of_mem_split
  path_ne := by rwa [Text.join_split]

/-- A path is judged as the names in it are. -/
theorem take?_join (hextensions : ∀ extension ∈ extensions, '/' ∉ extension.toList)
    {names : List String} (hnames : LeadsToFile names) (octets : List UInt8) :
    (take? extensions ignored (Text.join "/" names) (read octets)).map
        (fun file => (file.path, some file.content)) =
      if IsWanted extensions ignored read (names, octets) then
        some (Text.join "/" names, read octets)
      else none := by
  have hextension := hasExtension_join hextensions hnames.ne_nil
  have hdirectories : isIgnored (Text.join "/" names) ignored = false ↔
      ∀ name ∈ names.dropLast, name ∉ ignored :=
    isIgnored_join_eq_false_iff hnames.ne_nil hnames.no_slash
  split
  case isTrue hwanted =>
    obtain ⟨content, hcontent⟩ := Option.isSome_iff_exists.mp hwanted.isText
    have htake : take? extensions ignored (Text.join "/" names) (read octets) =
        some ⟨Text.join "/" names, content, hnames.path_ne⟩ :=
      take?_eq_some_iff.mpr ⟨rfl, hcontent, hextension.trans hwanted.extension,
        hdirectories.mpr hwanted.directories⟩
    rw [htake, hcontent]
    rfl
  case isFalse hunwanted =>
    rw [Option.map_eq_none_iff, Option.eq_none_iff_forall_ne_some]
    intro file hfile
    obtain ⟨-, hcontent, hname, hplace⟩ := take?_eq_some_iff.mp hfile
    refine hunwanted ⟨hextension.symm.trans hname, hdirectories.mp hplace, ?_⟩
    rw [hcontent]
    rfl

theorem takesEach_select (hextensions : ∀ extension ∈ extensions, '/' ∉ extension.toList)
    {found : List (List String × List UInt8)} (hfound : ∀ item ∈ found, LeadsToFile item.1)
    (hdistinct : ((textsOf read found).map Prod.fst).Nodup) :
    TakesEach extensions ignored read found (select extensions ignored (textsOf read found)) where
  each := by
    have htaken : ((textsOf read found).filterMap fun item =>
          take? extensions ignored item.1 item.2).map (fun file => (file.path, some file.content)) =
        (found.filter fun item => IsWanted extensions ignored read item).map fun item =>
          (Text.join "/" item.1, read item.2) := by
      rw [textsOf, List.filterMap_map, List.map_filterMap, ← List.filterMap_eq_map,
        List.filterMap_filter]
      apply List.filterMap_congr
      intro item hitem
      simpa using take?_join hextensions (hfound item hitem) item.2
    rw [← htaken, select]
    exact (sort_perm _).map _
  increasing := by
    have hpaths : ((select extensions ignored (textsOf read found)).map path).Nodup :=
      ((sort_perm _).map path).nodup_iff.mpr (nodup_map_path hdistinct)
    refine ((pairwise_sort _).and (List.pairwise_map.mp hpaths)).imp fun hboth => ?_
    exact lt_of_le_of_ne (Text.le_iff.mp hboth.1) hboth.2

end

end SourceFile

/-! ## Directories in another order -/

namespace FileTree

/-- The entries of a directory in another order, and so those of directories below it. -/
inductive Relisted : List (String × FileTree) → List (String × FileTree) → Prop where
  | nil : Relisted [] []
  | cons (entry : String × FileTree) {entries others : List (String × FileTree)}
      (hrest : Relisted entries others) : Relisted (entry :: entries) (entry :: others)
  | within (name : String) {held relisted entries others : List (String × FileTree)}
      (hheld : Relisted held relisted) (hrest : Relisted entries others) :
      Relisted ((name, directory held) :: entries) ((name, directory relisted) :: others)
  | swap (first second : String × FileTree) (entries : List (String × FileTree)) :
      Relisted (first :: second :: entries) (second :: first :: entries)
  | trans {entries others more : List (String × FileTree)} (hfirst : Relisted entries others)
      (hnext : Relisted others more) : Relisted entries more

variable {entries others : List (String × FileTree)}

theorem Relisted.perm_names (hrelisted : Relisted entries others) :
    (entries.map Prod.fst).Perm (others.map Prod.fst) := by
  induction hrelisted with
  | nil => exact .nil
  | cons entry _ ih => exact ih.cons entry.1
  | within name _ _ _ ih => exact ih.cons name
  | swap first second _ => exact .swap second.1 first.1 _
  | trans _ _ ihFirst ihNext => exact ihFirst.trans ihNext

/-- The same leaves are found, in another order. -/
theorem Relisted.perm_leavesIn (hrelisted : Relisted entries others) (skip : String → Bool) :
    (leavesIn skip entries).Perm (leavesIn skip others) := by
  induction hrelisted with
  | nil => exact .nil
  | cons entry _ ih =>
      simp only [leavesIn_eq_flatMap, List.flatMap_cons] at ih ⊢
      exact ih.append_left _
  | @within name held relisted entries others _ _ ihHeld ihRest =>
      have hfirst : (leavesOf skip (name, directory held)).Perm
          (leavesOf skip (name, directory relisted)) := by
        rw [leavesOf_directory, leavesOf_directory]
        split
        · exact .nil
        · exact ihHeld.map _
      simp only [leavesIn_eq_flatMap, List.flatMap_cons] at ihRest ⊢
      exact hfirst.append ihRest
  | swap first second entries =>
      simp only [leavesIn_eq_flatMap, List.flatMap_cons, ← List.append_assoc]
      exact List.perm_append_comm.append_right _
  | trans _ _ ihFirst ihNext => exact ihFirst.trans ihNext

theorem isPlain_directory_iff : (directory entries).IsPlain ↔
    (entries.map Prod.fst).Nodup ∧ ∀ entry ∈ entries, Path.IsName entry.1 ∧ entry.2.IsPlain := by
  constructor
  · intro hplain
    cases hplain with
    | directory hnodup hname hplain =>
        exact ⟨hnodup, fun entry hentry => ⟨hname entry hentry, hplain entry hentry⟩⟩
  · rintro ⟨hnodup, hentries⟩
    exact .directory hnodup (fun entry hentry => (hentries entry hentry).1) fun entry hentry =>
      (hentries entry hentry).2

theorem Relisted.isPlain_entries (hrelisted : Relisted entries others)
    (hentries : ∀ entry ∈ entries, Path.IsName entry.1 ∧ entry.2.IsPlain) :
    ∀ entry ∈ others, Path.IsName entry.1 ∧ entry.2.IsPlain := by
  induction hrelisted with
  | nil => exact nofun
  | cons entry _ ih =>
      obtain ⟨hfirst, hrest⟩ := List.forall_mem_cons.mp hentries
      exact List.forall_mem_cons.mpr ⟨hfirst, ih hrest⟩
  | within name hheld _ ihHeld ihRest =>
      obtain ⟨⟨hname, hplain⟩, hrest⟩ := List.forall_mem_cons.mp hentries
      obtain ⟨hnodup, hbelow⟩ := isPlain_directory_iff.mp hplain
      have hplain := isPlain_directory_iff.mpr
        ⟨hheld.perm_names.nodup_iff.mp hnodup, ihHeld hbelow⟩
      exact List.forall_mem_cons.mpr ⟨⟨hname, hplain⟩, ihRest hrest⟩
  | swap first second entries =>
      obtain ⟨hfirst, hmore⟩ := List.forall_mem_cons.mp hentries
      obtain ⟨hsecond, hrest⟩ := List.forall_mem_cons.mp hmore
      exact List.forall_mem_cons.mpr ⟨hsecond, List.forall_mem_cons.mpr ⟨hfirst, hrest⟩⟩
  | trans _ _ ihFirst ihNext => exact ihNext (ihFirst hentries)

theorem Relisted.isPlain (hrelisted : Relisted entries others)
    (hplain : (directory entries).IsPlain) : (directory others).IsPlain := by
  obtain ⟨hnodup, hentries⟩ := isPlain_directory_iff.mp hplain
  exact isPlain_directory_iff.mpr
    ⟨hrelisted.perm_names.nodup_iff.mp hnodup, hrelisted.isPlain_entries hentries⟩

/-- The files below a directory, by the names from there on. -/
def filesIn (entries : List (String × FileTree)) : List (List String × List UInt8) :=
  (directory entries).allLeaves.map fun leaf => (leaf.1, leaf.2.octets)

/-- To keep out of ignored directories is to judge complete paths. -/
theorem leavesIn_eq_filter_isIgnored (hplain : (directory entries).IsPlain) (ignored : List String) :
    leavesIn ignored.contains entries = (directory entries).allLeaves.filter fun leaf =>
      !isIgnored (Text.join "/" leaf.1) ignored := by
  rw [leavesIn_eq_filter]
  apply List.filter_congr
  intro leaf hleaf
  have hnames := (hplain.leaf_spec leaf hleaf).2
  rw [isReached, isIgnored_join (ne_nil_of_mem_leavesIn hleaf) fun name hname =>
    (hnames name hname).no_slash]

end FileTree

/-! ## Working trees -/

namespace Disk

/-- A path leads to a directory with some entries. -/
def Opens (disk : Disk) (path : String) (entries : List (String × FileTree)) : Prop :=
  ∃ location directory, disk.resolve path = .ok location ∧
    disk.open? location = .ok (directory, entries)

/-- The text of a file of a working tree. -/
def textOf? (octets : List UInt8) : Option String := (Utf8.decode? octets).map Text.unified

variable {disk : Disk} {path : String} {entries : List (String × FileTree)}
  {extensions ignored : List String}

theorem Opens.value_walk (hopens : disk.Opens path entries)
    (hplain : (FileTree.directory entries).IsPlain)
    (hextensions : ∀ extension ∈ extensions, '/' ∉ extension.toList) (ignored : List String) :
    (disk.walk path extensions ignored).value =
      .ok (SourceFile.select extensions ignored
        (SourceFile.textsOf textOf? (FileTree.filesIn entries))) := by
  obtain ⟨location, directory, hresolve, hopen⟩ := hopens
  have htexts : SourceFile.textsOf textOf? (FileTree.filesIn entries) =
      ((FileTree.directory entries).allLeaves.map FileTree.textOfLeaf).map fun item =>
        (item.1, item.2.map Text.unified) := by
    rw [SourceFile.textsOf, FileTree.filesIn, List.map_map, List.map_map]
    rfl
  rw [walk, hresolve]
  simp only [hopen, Logged.value_bind, Logged.value_pure]
  rw [value_walkFrom disk _ _ hplain hextensions, htexts, SourceFile.select_map]
  rfl

/-- What a walk makes of a directory: each wanted file once, whatever the order of entries. -/
structure WalksEach (disk : Disk) (path : String) (entries : List (String × FileTree))
    (extensions ignored : List String) : Prop where
  returns : ∃ files, (disk.walk path extensions ignored).value = .ok files ∧
    SourceFile.TakesEach extensions ignored textOf? (FileTree.filesIn entries) files ∧
    ∀ (other : Disk) (place : String) (others : List (String × FileTree)), other.Opens place others →
      FileTree.Relisted entries others → (other.walk place extensions ignored).value = .ok files
  pruned : FileTree.leavesIn ignored.contains entries =
    (FileTree.directory entries).allLeaves.filter fun leaf =>
      !isIgnored (Text.join "/" leaf.1) ignored

theorem map_fst_textsOf_filesIn (entries : List (String × FileTree)) :
    (SourceFile.textsOf textOf? (FileTree.filesIn entries)).map Prod.fst =
      ((FileTree.directory entries).allLeaves.map FileTree.textOfLeaf).map Prod.fst := by
  rw [SourceFile.textsOf, FileTree.filesIn, List.map_map, List.map_map, List.map_map]
  rfl

theorem Opens.walksEach (hopens : disk.Opens path entries)
    (hplain : (FileTree.directory entries).IsPlain)
    (hextensions : ∀ extension ∈ extensions, '/' ∉ extension.toList) (ignored : List String) :
    disk.WalksEach path entries extensions ignored where
  returns := by
    have hdistinct : ((SourceFile.textsOf textOf? (FileTree.filesIn entries)).map Prod.fst).Nodup := by
      rw [map_fst_textsOf_filesIn]
      exact FileTree.nodup_texts hplain
    have hfound : ∀ item ∈ FileTree.filesIn entries, SourceFile.LeadsToFile item.1 := by
      intro item hitem
      obtain ⟨leaf, hleaf, rfl⟩ := List.mem_map.mp hitem
      exact SourceFile.leadsToFile_of_isName (FileTree.ne_nil_of_mem_leavesIn hleaf)
        (hplain.leaf_spec leaf hleaf).2
    refine ⟨_, hopens.value_walk hplain hextensions ignored,
      SourceFile.takesEach_select hextensions hfound hdistinct, ?_⟩
    intro other place others hother hrelisted
    rw [hother.value_walk (hrelisted.isPlain hplain) hextensions ignored]
    -- No two files have one path, so sorting leaves no trace of the order of entries.
    have hperm := ((hrelisted.perm_leavesIn fun _ => false).map fun leaf =>
      (leaf.1, leaf.2.octets)).map fun item => (Text.join "/" item.1, textOf? item.2)
    exact congrArg _ (SourceFile.select_of_perm hperm hdistinct).symm
  pruned := FileTree.leavesIn_eq_filter_isIgnored hplain ignored

end Disk

/-! ## Revisions -/

namespace History

/-- The files below a directory, by the names from there on. -/
def filesBelow (base : String) (entries : List CommitEntry) : List (List String × List UInt8) :=
  entries.filterMap fun entry =>
    (textBelow? { base } entry).map fun item => (Text.split '/' item.1, entry.octets)

/-- What paths a commit has: each file has a path of its own, and none of them is the path that leads
to the directory. -/
structure HasPaths (base : String) (entries : List CommitEntry) : Prop where
  distinct : ((entries.filter fun entry => entry.kind = .blob).map CommitEntry.path).Nodup
  ne_base : ∀ entry ∈ entries, entry.kind = .blob → entry.path ≠ base

variable {history : History} {repository : Repository} {base ref : String} {commit : Commit}
  {entry : CommitEntry} {entries others : List CommitEntry} {extensions ignored : List String}

theorem textBelow?_eq_some_iff {item : String × Option String} :
    history.textBelow? entry = some item ↔
      entry.kind = .blob ∧ entry.path = history.base ++ item.1 ∧
        Utf8.decode? entry.octets = item.2 := by
  obtain ⟨path, content?⟩ := item
  rw [textBelow?, Option.ite_none_right_eq_some, Bool.and_eq_true, decide_eq_true_eq, and_assoc]
  refine and_congr_right fun _ => ?_
  rw [Text.startsWith, List.isPrefixOf_iff_prefix, Option.some.injEq, Prod.mk.injEq]
  constructor
  · rintro ⟨⟨rest, hrest⟩, hpath, hcontent⟩
    refine ⟨?_, hcontent⟩
    rw [← hpath, ← hrest, ← String.length_toList, List.drop_left, ← String.toList_inj,
      String.toList_append, String.toList_ofList, hrest]
  · rintro ⟨hpath, hcontent⟩
    rw [hpath, String.toList_append, ← String.length_toList, List.drop_left, String.ofList_toList]
    exact ⟨List.prefix_append _ _, rfl, hcontent⟩

/-- The names lead from the directory to the file, whatever the path to the directory is. -/
theorem mem_filesBelow_iff {names : List String} {octets : List UInt8} :
    (names, octets) ∈ filesBelow base entries ↔
      names ≠ [] ∧ (∀ name ∈ names, '/' ∉ name.toList) ∧
        ∃ entry ∈ entries, entry.kind = .blob ∧ entry.path = base ++ Text.join "/" names ∧
          entry.octets = octets := by
  rw [filesBelow, List.mem_filterMap]
  constructor
  · rintro ⟨entry, hentry, hfound⟩
    obtain ⟨item, hitem, hnames⟩ := Option.map_eq_some_iff.mp hfound
    obtain ⟨rfl, rfl⟩ := Prod.mk.inj hnames
    obtain ⟨hkind, hpath, -⟩ := textBelow?_eq_some_iff.mp hitem
    refine ⟨Text.split_ne_nil _ _, fun _ => Text.no_slash_of_mem_split, entry, hentry, hkind, ?_, rfl⟩
    rwa [Text.join_split]
  · rintro ⟨hnames, hslash, entry, hentry, hkind, hpath, rfl⟩
    have hitem : textBelow? { base } entry =
        some (Text.join "/" names, Utf8.decode? entry.octets) :=
      textBelow?_eq_some_iff.mpr ⟨hkind, hpath, rfl⟩
    refine ⟨entry, hentry, ?_⟩
    rw [hitem, Option.map_some, Text.split_join hnames hslash]

theorem textsOf_filesBelow (base : String) (entries : List CommitEntry) :
    SourceFile.textsOf Utf8.decode? (filesBelow base entries) =
      entries.filterMap (textBelow? { base }) := by
  rw [SourceFile.textsOf, filesBelow, List.map_filterMap]
  apply List.filterMap_congr
  intro entry _
  cases hitem : textBelow? { base } entry with
  | none => rfl
  | some item =>
      obtain ⟨-, -, hcontent⟩ := textBelow?_eq_some_iff.mp hitem
      simp [Text.join_split, hcontent]

namespace HasPaths

theorem path_ne (hpaths : HasPaths base entries) (hentry : entry ∈ entries) :
    ∀ item ∈ textBelow? { base } entry, item.1 ≠ "" := by
  intro item hitem hempty
  obtain ⟨hkind, hpath, -⟩ := textBelow?_eq_some_iff.mp hitem
  rw [hempty, String.append_empty] at hpath
  exact hpaths.ne_base entry hentry hkind hpath

theorem nodup (hpaths : HasPaths base entries) :
    ((SourceFile.textsOf Utf8.decode? (filesBelow base entries)).map Prod.fst).Nodup := by
  rw [textsOf_filesBelow, List.Nodup, List.pairwise_map, List.pairwise_filterMap]
  have hdistinct := List.pairwise_filter.mp (List.pairwise_map.mp hpaths.distinct)
  refine hdistinct.imp fun {entry other} hdiffer item hitem more hmore hsame => ?_
  obtain ⟨hkind, hpath, -⟩ := textBelow?_eq_some_iff.mp hitem
  obtain ⟨hotherKind, hotherPath, -⟩ := textBelow?_eq_some_iff.mp hmore
  refine hdiffer (decide_eq_true hkind) (decide_eq_true hotherKind) ?_
  rw [hpath, hotherPath, hsame]

theorem perm (hpaths : HasPaths base entries) (hperm : others.Perm entries) :
    HasPaths base others where
  distinct := ((hperm.filter _).map _).nodup_iff.mpr hpaths.distinct
  ne_base entry hentry := hpaths.ne_base entry (hperm.mem_iff.mp hentry)

theorem leadsToFile (hpaths : HasPaths base entries) :
    ∀ item ∈ filesBelow base entries, SourceFile.LeadsToFile item.1 := by
  intro item hitem
  obtain ⟨entry, hentry, hfound⟩ := List.mem_filterMap.mp hitem
  obtain ⟨text, htext, rfl⟩ := Option.map_eq_some_iff.mp hfound
  exact SourceFile.leadsToFile_split (hpaths.path_ne hentry text htext)

theorem value_filesAt (hpaths : HasPaths base commit.entries)
    (hrevision : repository.revision ref = .commit commit) (extensions ignored : List String) :
    (filesAt ⟨some repository, base⟩ ref extensions ignored).value =
      .ok (SourceFile.select extensions ignored
        (SourceFile.textsOf Utf8.decode? (filesBelow base commit.entries))) := by
  have hread : (filesAt ⟨some repository, base⟩ ref extensions ignored).value =
      .ok (SourceFile.select extensions ignored
        (commit.entries.filterMap (textBelow? ⟨some repository, base⟩))) :=
    History.value_filesAt rfl hrevision fun entry hentry => hpaths.path_ne hentry
  rw [hread, textsOf_filesBelow]
  rfl

end HasPaths

/-- What is made of a directory at a revision: each wanted file once, whatever the order of entries. -/
structure ReadsEach (repository : Repository) (base ref : String) (commit : Commit)
    (extensions ignored : List String) : Prop where
  below : ∀ names octets, (names, octets) ∈ filesBelow base commit.entries ↔
    names ≠ [] ∧ (∀ name ∈ names, '/' ∉ name.toList) ∧
      ∃ entry ∈ commit.entries, entry.kind = .blob ∧ entry.path = base ++ Text.join "/" names ∧
        entry.octets = octets
  returns : ∃ files, (filesAt ⟨some repository, base⟩ ref extensions ignored).value = .ok files ∧
    SourceFile.TakesEach extensions ignored Utf8.decode? (filesBelow base commit.entries) files ∧
    ∀ (other : Repository) (name : String) (traversed : Commit),
      other.revision name = .commit traversed → traversed.entries.Perm commit.entries →
        (filesAt ⟨some other, base⟩ name extensions ignored).value = .ok files

theorem HasPaths.readsEach (hpaths : HasPaths base commit.entries)
    (hrevision : repository.revision ref = .commit commit)
    (hextensions : ∀ extension ∈ extensions, '/' ∉ extension.toList) (ignored : List String) :
    ReadsEach repository base ref commit extensions ignored where
  below _ _ := mem_filesBelow_iff
  returns := by
    refine ⟨_, hpaths.value_filesAt hrevision extensions ignored,
      SourceFile.takesEach_select hextensions hpaths.leadsToFile hpaths.nodup, ?_⟩
    intro other name traversed hother hperm
    have htexts : (SourceFile.textsOf Utf8.decode? (filesBelow base commit.entries)).Perm
        (SourceFile.textsOf Utf8.decode? (filesBelow base traversed.entries)) := by
      rw [textsOf_filesBelow, textsOf_filesBelow]
      exact hperm.symm.filterMap _
    rw [(hpaths.perm hperm).value_filesAt hother extensions ignored]
    exact congrArg _ (SourceFile.select_of_perm htexts hpaths.nodup).symm

end History

/-! ## Both -/

/-- **Every wanted file once**, in a directory and at a revision.  The extensions must have no slash in
them, and a directory of a working tree holds only files and directories. -/
theorem SourceFile.scans_take_each {extensions : List String}
    (hextensions : ∀ extension ∈ extensions, '/' ∉ extension.toList) (ignored : List String) :
    (∀ (disk : Disk) (path : String) (entries : List (String × FileTree)),
        disk.Opens path entries → (FileTree.directory entries).IsPlain →
          disk.WalksEach path entries extensions ignored) ∧
      ∀ (repository : Repository) (base ref : String) (commit : Commit),
        repository.revision ref = .commit commit → History.HasPaths base commit.entries →
          History.ReadsEach repository base ref commit extensions ignored :=
  ⟨fun _ _ _ hopens hplain => hopens.walksEach hplain hextensions ignored,
    fun _ _ _ _ hrevision hpaths => hpaths.readsEach hrevision hextensions ignored⟩

/-- A directory with a text, a file that is no text, and a directory that is ignored. -/
def FileTree.shelfEntries : List (String × FileTree) :=
  [("b", .directory [("B.go", .file [98, 13, 10]), ("vendor", .directory [("C.go", .file [99])])]),
    ("A.go", .file [0xFF])]

/-- The same directory in another order. -/
def FileTree.shelfRelisted : List (String × FileTree) :=
  [("A.go", .file [0xFF]),
    ("b", .directory [("vendor", .directory [("C.go", .file [99])]), ("B.go", .file [98, 13, 10])])]

theorem FileTree.relisted_shelf : Relisted shelfEntries shelfRelisted :=
  .trans (.within "b" (.swap _ _ _) (.cons _ .nil)) (.swap _ _ _)

/-- A disk with a directory that holds some entries. -/
def Disk.holding (entries : List (String × FileTree)) : Disk :=
  { tree := .directory [("app", .directory entries)] }

theorem FileTree.isPlain_shelf : (directory shelfEntries).IsPlain := by
  have hvendor : (directory [("C.go", .file [99])]).IsPlain :=
    .directory (by decide) (by decide) (List.forall_mem_singleton.mpr (.file _))
  have hbelow : (directory [("B.go", .file [98, 13, 10]),
      ("vendor", .directory [("C.go", .file [99])])]).IsPlain :=
    .directory (by decide) (by decide)
      (List.forall_mem_cons.mpr ⟨.file _, List.forall_mem_singleton.mpr hvendor⟩)
  exact .directory (by decide) (by decide)
    (List.forall_mem_cons.mpr ⟨hbelow, List.forall_mem_singleton.mpr (.file _)⟩)

theorem Disk.opens_holding {entries : List (String × FileTree)}
    (hplain : (FileTree.directory entries).IsPlain) : (holding entries).Opens "/app" entries := by
  have hname : Path.IsName "app" := ⟨by decide, by decide⟩
  have htree : (holding entries).tree.IsPlain :=
    .directory (List.nodup_singleton _) (List.forall_mem_singleton.mpr hname)
      (List.forall_mem_singleton.mpr hplain)
  exact ⟨["app"], ["app"], resolve_of_isPlain htree (by decide), rfl⟩

/-- What a commit holds if the directory is committed. -/
def History.shelfCommit : Commit where
  sha := "1f"
  entries := [⟨"app/b/B.go", .blob, [98, 13, 10]⟩, ⟨"app", .tree, []⟩, ⟨"app/A.go", .blob, [0xFF]⟩,
    ⟨"app/b/vendor/C.go", .blob, [99]⟩]

def History.shelfRepository : Repository := { refs := [("HEAD", .commit shelfCommit)] }

theorem SourceFile.scans_take_each_shelf :
    (∀ extension ∈ [".go"], '/' ∉ extension.toList) ∧
      (Disk.holding FileTree.shelfEntries).Opens "/app" FileTree.shelfEntries ∧
      (FileTree.directory FileTree.shelfEntries).IsPlain ∧
      History.shelfRepository.revision "HEAD" = .commit History.shelfCommit ∧
      History.HasPaths "app/" History.shelfCommit.entries ∧
      (∃ files,
        ((Disk.holding FileTree.shelfEntries).walk "/app" [".go"] ["vendor"]).value = .ok files ∧
          ((Disk.holding FileTree.shelfRelisted).walk "/app" [".go"] ["vendor"]).value =
            .ok files) ∧
      History.ReadsEach History.shelfRepository "app/" "HEAD" History.shelfCommit [".go"]
        ["vendor"] := by
  have hextensions : ∀ extension ∈ [".go"], '/' ∉ extension.toList := by decide
  have hplain := FileTree.isPlain_shelf
  have hopens := Disk.opens_holding hplain
  have hrelisted := Disk.opens_holding (FileTree.relisted_shelf.isPlain hplain)
  have hrevision : History.shelfRepository.revision "HEAD" = .commit History.shelfCommit := rfl
  have hpaths : History.HasPaths "app/" History.shelfCommit.entries :=
    ⟨by decide, by simp [History.shelfCommit]⟩
  obtain ⟨hwalks, hreads⟩ := scans_take_each hextensions ["vendor"]
  obtain ⟨files, hfiles, -, hsame⟩ := (hwalks _ _ _ hopens hplain).returns
  exact ⟨hextensions, hopens, hplain, hrevision, hpaths,
    ⟨files, hfiles, hsame _ _ _ hrelisted FileTree.relisted_shelf⟩,
    hreads _ _ _ _ hrevision hpaths⟩

end TypeAtlas
