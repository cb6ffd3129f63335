import Mathlib.Data.List.Nodup
import TypeAtlas.Source.File

/-!
# Which files a scan makes of what it finds

Both ways to find files, in a directory and at a revision, come down to one: of some paths, each with
the text that was found there if there is one, those are taken that have a wanted extension and lie in
no ignored directory, and the files that are made of them are put in the order of their paths.

As long as no path comes twice the result does not depend on the order of the paths
(`select_of_perm`), and what is done to all texts is done to all files (`select_map`).
-/

namespace TypeAtlas.SourceFile

/-- The file that a scan makes of a path, if it takes the path and there is a text. -/
def take? (extensions ignored : List String) (path : String) (content? : Option String) :
    Option SourceFile :=
  if hasExtension path extensions && !isIgnored path ignored then
    content?.bind fun content => (make path content).toOption
  else none

/-- The files that a scan makes of some paths, in order. -/
def select (extensions ignored : List String) (items : List (String × Option String)) :
    List SourceFile :=
  sort (items.filterMap fun item => take? extensions ignored item.1 item.2)

/-- The file with something done to its text. -/
def mapContent (change : String → String) (file : SourceFile) : SourceFile :=
  { file with content := change file.content }

/-! ## Sorting -/

theorem sort_perm (files : List SourceFile) : (sort files).Perm files :=
  List.mergeSort_perm files _

theorem mem_sort {file : SourceFile} {files : List SourceFile} : file ∈ sort files ↔ file ∈ files :=
  (sort_perm files).mem_iff

theorem pairwise_sort (files : List SourceFile) :
    (sort files).Pairwise fun file other => Text.le file.path other.path = true := by
  apply List.pairwise_mergeSort
  · intro file other third hfirst hnext
    exact Text.charsLe_trans hfirst hnext
  · intro file other
    exact Text.charsLe_total file.path.toList other.path.toList

/-- Files with different paths have one order. -/
theorem sort_of_perm {files others : List SourceFile} (hperm : files.Perm others)
    (hdistinct : (files.map path).Nodup) : sort files = sort others := by
  have hsame : (sort files).Perm (sort others) :=
    (sort_perm files).trans (hperm.trans (sort_perm others).symm)
  refine hsame.eq_of_pairwise ?_ (pairwise_sort files) (pairwise_sort others)
  intro file other hfile hother hforth hback
  have hfile : file ∈ files := mem_sort.mp hfile
  have hother : other ∈ files := hperm.mem_iff.mpr (mem_sort.mp hother)
  exact List.inj_on_of_nodup_map hdistinct hfile hother (Text.le_antisymm hforth hback)

theorem sort_map (change : String → String) (files : List SourceFile) :
    sort (files.map (mapContent change)) = (sort files).map (mapContent change) := by
  symm
  apply List.map_mergeSort
  intro file _ other _
  rfl

/-! ## Selecting -/

section

variable {extensions ignored : List String}

theorem take?_eq_some_iff {path : String} {content? : Option String} {file : SourceFile} :
    take? extensions ignored path content? = some file ↔
      path = file.path ∧ content? = some file.content ∧ hasExtension path extensions = true ∧
        isIgnored path ignored = false := by
  rw [take?]
  constructor
  · intro htake
    split at htake
    next hwanted =>
      obtain ⟨hextension, hplace⟩ := Bool.and_eq_true_iff.mp hwanted
      obtain ⟨content, rfl, hmake⟩ := Option.bind_eq_some_iff.mp htake
      rw [make] at hmake
      split at hmake
      next hpath =>
        obtain rfl := Option.some.inj hmake
        exact ⟨rfl, rfl, hextension, by simpa using hplace⟩
      next => cases hmake
    next => cases htake
  · rintro ⟨rfl, rfl, hextension, hplace⟩
    rw [hextension, hplace, Option.bind_some, make, dif_pos file.path_ne]
    rfl

theorem take?_map (change : String → String) (path : String) (content? : Option String) :
    take? extensions ignored path (content?.map change) =
      (take? extensions ignored path content?).map (mapContent change) := by
  rw [take?, take?]
  split
  · cases content? with
    | none => rfl
    | some content =>
        rw [Option.map_some, Option.bind_some, Option.bind_some, make, make]
        by_cases hpath : path ≠ ""
        · rw [dif_pos hpath, dif_pos hpath]
          rfl
        · rw [dif_neg hpath, dif_neg hpath]
          rfl
  · rfl

variable {items others : List (String × Option String)}

theorem mem_select {file : SourceFile} :
    file ∈ select extensions ignored items ↔
      (file.path, some file.content) ∈ items ∧ hasExtension file.path extensions = true ∧
        isIgnored file.path ignored = false := by
  rw [select, mem_sort, List.mem_filterMap]
  constructor
  · rintro ⟨⟨path, content?⟩, hitem, htake⟩
    obtain ⟨rfl, rfl, hwanted⟩ := take?_eq_some_iff.mp htake
    exact ⟨hitem, hwanted⟩
  · rintro ⟨hitem, hwanted⟩
    exact ⟨_, hitem, take?_eq_some_iff.mpr ⟨rfl, rfl, hwanted⟩⟩

theorem nodup_map_path (hdistinct : (items.map Prod.fst).Nodup) :
    ((items.filterMap fun item => take? extensions ignored item.1 item.2).map path).Nodup := by
  rw [List.Nodup, List.pairwise_map, List.pairwise_filterMap]
  apply (List.pairwise_map.mp hdistinct).imp
  intro item other hdiffer file hfile file' hfile'
  rw [← (take?_eq_some_iff.mp hfile).1, ← (take?_eq_some_iff.mp hfile').1]
  exact hdiffer

theorem select_of_perm (hperm : items.Perm others) (hdistinct : (items.map Prod.fst).Nodup) :
    select extensions ignored items = select extensions ignored others :=
  sort_of_perm (hperm.filterMap _) (nodup_map_path hdistinct)

theorem select_map (change : String → String) (items : List (String × Option String)) :
    select extensions ignored (items.map fun item => (item.1, item.2.map change)) =
      (select extensions ignored items).map (mapContent change) := by
  rw [select, select, ← sort_map, List.filterMap_map, List.map_filterMap]
  congr 1
  apply List.filterMap_congr
  intro item _
  exact take?_map change item.1 item.2

end

end TypeAtlas.SourceFile
