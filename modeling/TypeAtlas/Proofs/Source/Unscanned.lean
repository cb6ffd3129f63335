import TypeAtlas.Proofs.Source.Writing
import TypeAtlas.Source.History

/-!
# A file that no scan takes

`Disk.Scans` says that a scan of a directory takes the file at a place, be it as a file of the directory
or at the end of a link.  To write a file that is not taken does not change what the directory is read
as (`value_walk_put`), nor what is found out about its repository (`ofDirectory_put`): the file may
lie in the directory, but then it is one of the leaves that are left out.
-/

namespace TypeAtlas

namespace Disk

variable {disk : Disk} {place directory named : Location} {path : String}
  {extensions ignored : List String}

/-! ## The files that a scan takes -/

/-- The place of the file of a leaf of a directory; that of a link is the place it leads to. -/
def leafPlace (disk : Disk) (directory : Location) (leaf : List String × FileTree) :
    Except FileFault Location :=
  match leaf.2 with
  | .file _ => .ok (directory ++ leaf.1)
  | _ => disk.locateFrom false linkLimit (directory ++ leaf.1.dropLast) [leaf.1.getLastD ""]

/-- Whether a scan of the directory of a path takes the file at a place. -/
def Scans (disk : Disk) (path : String) (extensions ignored : List String)
    (place : Location) : Prop :=
  ∃ location directory entries, disk.resolve path = .ok location ∧
    disk.open? location = .ok (directory, entries) ∧
    ∃ leaf ∈ disk.wantedLeaves directory entries extensions ignored,
      disk.leafPlace directory leaf = .ok place

theorem isFileLeaf_eq_false_iff {leaf : List String × FileTree} :
    disk.isFileLeaf directory leaf = false ↔ disk.readLeaf directory leaf = .error .isDirectory := by
  rw [isFileLeaf]
  split
  next hread => exact ⟨fun _ => hread, fun _ => rfl⟩
  next hread => exact ⟨nofun, fun hdirectory => absurd hdirectory hread⟩

/-- Whether a scan takes a leaf of a directory: not if the way to it is ignored, if it has another
extension, or if it leads to a directory. -/
def takesLeaf (disk : Disk) (directory : Location) (extensions ignored : List String)
    (leaf : List String × FileTree) : Bool :=
  (hasExtension (leaf.1.getLastD "") extensions && disk.isFileLeaf directory leaf) &&
    FileTree.isReached ignored.contains leaf

theorem wantedLeaves_eq_filter (disk : Disk) (directory : Location)
    (entries : List (String × FileTree)) (extensions ignored : List String) :
    disk.wantedLeaves directory entries extensions ignored =
      (FileTree.directory entries).allLeaves.filter
        (disk.takesLeaf directory extensions ignored) := by
  rw [wantedLeaves, FileTree.leavesIn_eq_filter, List.filter_filter]
  rfl

/-- What a file holds does not matter. -/
theorem takesLeaf_file (names : List String) (octets octets' : List UInt8) :
    disk.takesLeaf directory extensions ignored (names, .file octets) =
      disk.takesLeaf directory extensions ignored (names, .file octets') := rfl

theorem readLeaf_of_not_file {leaf : List String × FileTree}
    (hleaf : ∀ octets, leaf.2 ≠ .file octets) :
    disk.readLeaf directory leaf = (disk.leafPlace directory leaf).bind disk.readAt := by
  obtain ⟨names, tree⟩ := leaf
  cases tree with
  | file octets => exact absurd rfl (hleaf octets)
  | link target => rfl
  | directory entries => rfl

theorem value_readFile?_of_error {leaf : List String × FileTree} {fault : FileFault}
    (hread : disk.readLeaf directory leaf = .error fault) :
    (disk.readFile? directory named leaf).value = none := by
  rw [readFile?, hread]
  rfl

theorem at?_of_open? {location : Location} {entries : List (String × FileTree)}
    (hopen : disk.open? location = .ok (directory, entries)) :
    disk.at? directory = .ok (.directory entries) := by
  rw [open?] at hopen
  split at hopen
  next inner hinner =>
    obtain ⟨rfl, rfl⟩ := Prod.mk.inj (Except.ok.inj hopen)
    exact directory?_eq_some_iff.mp hinner
  next =>
    split at hopen
    next => cases hopen
    next found hfound =>
      split at hopen
      next inner hinner =>
        obtain ⟨rfl, rfl⟩ := Prod.mk.inj (Except.ok.inj hopen)
        exact directory?_eq_some_iff.mp hinner
      next => cases hopen

/-! ## Leaves after a file is put somewhere -/

section

variable (hroom : disk.tree.HasRoom place) (octets : List UInt8)

include hroom

theorem alike_leafPlace_put (directory : Location) (leaf : List String × FileTree) :
    Alike (disk.leafPlace directory leaf)
      ((disk.put place (.file octets)).leafPlace directory leaf) := by
  rw [leafPlace, leafPlace]
  split
  next => exact .refl _
  next => exact alike_locateFrom_put hroom octets _ _ _ _

theorem isDirectory_readAt_put (other : Location) :
    (disk.put place (.file octets)).readAt other = .error .isDirectory ↔
      disk.readAt other = .error .isDirectory := by
  have hput := putAt_at? hroom octets other
  rw [readAt, readAt]
  generalize disk.at? other = before at hput
  generalize (disk.put place (.file octets)).at? other = after at hput
  cases hput with
  | replaced old => simp
  | added => simp
  | above hplace hbelow =>
      obtain ⟨entries', hentries⟩ := hbelow.exists_put_eq (.file octets)
      rw [hentries]
  | aside hne halike =>
      obtain rfl | ⟨rfl, rfl⟩ := halike
      · rfl
      · simp

theorem isFileLeaf_put (directory : Location) (leaf : List String × FileTree) :
    (disk.put place (.file octets)).isFileLeaf directory leaf = disk.isFileLeaf directory leaf := by
  by_cases hfile : ∃ own, leaf.2 = .file own
  · obtain ⟨names, tree⟩ := leaf
    obtain ⟨own, rfl⟩ := hfile
    rfl
  · have hleaf : ∀ own, leaf.2 ≠ .file own := fun own hown => hfile ⟨own, hown⟩
    -- A link counts as a file unless it leads to a directory, and no directory comes or goes.
    rw [Bool.eq_iff_iff, ← not_iff_not, Bool.not_eq_true, Bool.not_eq_true, isFileLeaf_eq_false_iff,
      isFileLeaf_eq_false_iff, readLeaf_of_not_file hleaf, readLeaf_of_not_file hleaf]
    obtain hsame | ⟨hbefore, hafter⟩ := alike_leafPlace_put hroom octets directory leaf
    · rw [hsame]
      cases disk.leafPlace directory leaf with
      | error fault => rfl
      | ok other => exact isDirectory_readAt_put hroom octets other
    · rw [hbefore, hafter]
      exact iff_of_false nofun nofun

/-- A leaf is read as it was, if it is not the new file. -/
theorem alike_readLeaf_put {leaf : List String × FileTree}
    (hleaf : (disk.put place (.file octets)).leafPlace directory leaf ≠ .ok place) :
    Alike (disk.readLeaf directory leaf)
      ((disk.put place (.file octets)).readLeaf directory leaf) := by
  by_cases hfile : ∃ own, leaf.2 = .file own
  · obtain ⟨names, tree⟩ := leaf
    obtain ⟨own, rfl⟩ := hfile
    exact .refl _
  · have hother : ∀ own, leaf.2 ≠ .file own := fun own hown => hfile ⟨own, hown⟩
    have halike := alike_leafPlace_put hroom octets directory leaf
    rw [readLeaf_of_not_file hother, readLeaf_of_not_file hother]
    refine halike.bind fun other hplace => alike_readAt_put hroom octets ?_
    rintro rfl
    exact hleaf (halike.of_ok hplace)

theorem value_readFile?_put {leaf : List String × FileTree}
    (hleaf : (disk.put place (.file octets)).leafPlace directory leaf ≠ .ok place) :
    ((disk.put place (.file octets)).readFile? directory named leaf).value =
      (disk.readFile? directory named leaf).value := by
  obtain hsame | ⟨hbefore, hafter⟩ := alike_readLeaf_put hroom octets hleaf
  · rw [readFile?, readFile?, hsame]
  · rw [value_readFile?_of_error hbefore, value_readFile?_of_error hafter]

theorem takesLeaf_put (directory : Location) (extensions ignored : List String) :
    (disk.put place (.file octets)).takesLeaf directory extensions ignored =
      disk.takesLeaf directory extensions ignored := by
  funext leaf
  rw [takesLeaf, takesLeaf, isFileLeaf_put hroom]

/-- A directory has the leaves that it had for a scan, if the new file is none of them. -/
theorem exists_wantedLeaves_put {entries : List (String × FileTree)}
    (hat : disk.at? directory = .ok (.directory entries)) (extensions ignored : List String) :
    ∃ entries', (disk.put place (.file octets)).at? directory = .ok (.directory entries') ∧
      ((∀ leaf ∈ (disk.put place (.file octets)).wantedLeaves directory entries' extensions ignored,
          (disk.put place (.file octets)).leafPlace directory leaf ≠ .ok place) →
        (disk.put place (.file octets)).wantedLeaves directory entries' extensions ignored =
          disk.wantedLeaves directory entries extensions ignored) := by
  have hput := putAt_at? hroom octets directory
  rw [hat] at hput
  simp only [wantedLeaves_eq_filter, takesLeaf_put hroom]
  generalize (disk.put place (.file octets)).at? directory = after at hput
  cases hput with
  | aside hne halike => exact ⟨entries, halike.of_ok rfl, fun _ => rfl⟩
  | @above _ rest _ hplace hbelow =>
      obtain ⟨entries', hentries⟩ := hbelow.exists_put_eq (.file octets)
      obtain ⟨first, old, last, hleaves, hleaves', hold⟩ := hbelow.exists_leaves_put octets
      rw [hentries] at hleaves'
      refine ⟨entries', congrArg Except.ok hentries, fun hunscanned => ?_⟩
      rw [hleaves'] at hunscanned ⊢
      -- Neither the new file nor what it replaces is a leaf that a scan takes.
      have hnew : disk.takesLeaf directory extensions ignored (rest, .file octets) = false := by
        rw [Bool.eq_false_iff]
        intro htaken
        refine hunscanned (rest, .file octets) (List.mem_filter.mpr ⟨?_, htaken⟩)
          (congrArg Except.ok hplace)
        exact List.mem_append_right first List.mem_cons_self
      have hnone : old.filter (disk.takesLeaf directory extensions ignored) = [] := by
        rw [List.filter_eq_nil_iff]
        rintro ⟨names, leaf⟩ hleaf
        obtain ⟨hnames, own, hown⟩ := hold _ hleaf
        obtain rfl : names = rest := hnames
        obtain rfl : leaf = .file own := hown
        rw [takesLeaf_file names own octets, hnew]
        exact Bool.false_ne_true
      rw [hleaves, List.filter_append, List.filter_append, List.filter_append, hnone,
        List.filter_cons_of_neg (by rw [hnew]; exact Bool.false_ne_true), List.append_nil]

theorem directory?_put_eq_none {names : Location} (hnone : disk.directory? names = none) :
    (disk.put place (.file octets)).directory? names = none := by
  have hput := putAt_at? hroom octets names
  rw [directory?] at hnone ⊢
  generalize disk.at? names = before at hput hnone
  generalize (disk.put place (.file octets)).at? names = after at hput
  cases hput with
  | replaced old => rfl
  | added => rfl
  | above hplace hbelow => cases hnone
  | aside hne halike =>
      obtain rfl | ⟨rfl, rfl⟩ := halike
      · exact hnone
      · rfl

/-- A directory is opened where it was. -/
theorem open?_put {location : Location} {entries entries' : List (String × FileTree)}
    (hat : (disk.put place (.file octets)).at? directory = .ok (.directory entries'))
    (hopen : disk.open? location = .ok (directory, entries)) :
    (disk.put place (.file octets)).open? location = .ok (directory, entries') := by
  rw [open?] at hopen ⊢
  cases hlocation : disk.directory? location with
  | some inner =>
      rw [hlocation] at hopen
      obtain rfl : location = directory := (Prod.mk.inj (Except.ok.inj hopen)).1
      rw [directory?_eq_some_iff.mpr hat]
  | none =>
      rw [hlocation] at hopen
      rw [directory?_put_eq_none hroom octets hlocation]
      simp only at hopen ⊢
      split at hopen
      next => cases hopen
      next found hfound =>
        split at hopen
        next inner hinner =>
          obtain rfl : found = directory := (Prod.mk.inj (Except.ok.inj hopen)).1
          rw [(alike_locate_put hroom octets false _).of_ok hfound]
          simp only [directory?_eq_some_iff.mpr hat]
        next => cases hopen

theorem value_walkFrom_put {entries entries' : List (String × FileTree)}
    (hleaves : (disk.put place (.file octets)).wantedLeaves directory entries' extensions ignored =
      disk.wantedLeaves directory entries extensions ignored)
    (hapart : ∀ leaf ∈ (disk.put place (.file octets)).wantedLeaves directory entries' extensions
      ignored, (disk.put place (.file octets)).leafPlace directory leaf ≠ .ok place) :
    ((disk.put place (.file octets)).walkFrom directory named entries' extensions ignored).value =
      (disk.walkFrom directory named entries extensions ignored).value := by
  rw [value_walkFrom_eq_sort, value_walkFrom_eq_sort, ← hleaves]
  congr 1
  apply List.filterMap_congr
  intro leaf hleaf
  exact value_readFile?_put hroom octets (hapart leaf hleaf)

/-- **A directory is read as it was** before a file was written, if that file is not one that a scan
takes. -/
theorem value_walk_put {files : List SourceFile}
    (hunscanned : ¬ (disk.put place (.file octets)).Scans path extensions ignored place)
    (hwalk : (disk.walk path extensions ignored).value = .ok files) :
    ((disk.put place (.file octets)).walk path extensions ignored).value = .ok files := by
  rw [walk] at hwalk ⊢
  rw [resolve_put hroom]
  cases hresolve : disk.resolve path with
  | error fault =>
      rw [hresolve] at hwalk
      cases hwalk
  | ok location =>
      rw [hresolve] at hwalk
      cases hopen : disk.open? location with
      | error fault =>
          simp only [hopen] at hwalk
          cases hwalk
      | ok opened =>
          obtain ⟨directory, entries⟩ := opened
          obtain ⟨entries', hat, hleaves⟩ :=
            exists_wantedLeaves_put hroom octets (at?_of_open? hopen) extensions ignored
          have hopen' := open?_put hroom octets hat hopen
          have hapart : ∀ leaf ∈ (disk.put place (.file octets)).wantedLeaves directory entries'
              extensions ignored,
                (disk.put place (.file octets)).leafPlace directory leaf ≠ .ok place := by
            intro leaf hleaf hplace
            exact hunscanned ⟨location, directory, entries',
              (resolve_put hroom octets path).trans hresolve, hopen', leaf, hleaf, hplace⟩
          simp only [hopen, Logged.value_bind, Logged.value_pure] at hwalk
          simp only [hopen', Logged.value_bind, Logged.value_pure]
          rw [value_walkFrom_put hroom octets (hleaves hapart) hapart]
          exact hwalk

end

end Disk

/-- The repository around a directory is found as it was. -/
theorem History.ofDirectory_put {disk : Disk} {place : Location} (hroom : disk.tree.HasRoom place)
    (octets : List UInt8) (path : String) (repository : Option Repository) :
    ofDirectory (disk.put place (.file octets)) path repository =
      ofDirectory disk path repository := by
  simp only [ofDirectory, Disk.resolve_put hroom]

end TypeAtlas
