import TypeAtlas.Proofs.Graph.Comparison
import TypeAtlas.Proofs.Scan.Outcome

/-!
# Scans of changed files

What a scan finds depends on its files only through what each of them yields, and neither the order
nor the number of the same yields matters for which keys the graph has.  So moving files about changes
no key (`scanFiles_rearranged`), and files that come in take no key away (`scanFiles_of_sublist`).

Both statements are about two scans of which the first returns, each after whatever other scans, and
both say that the second one returns, too.
-/

namespace TypeAtlas

/-! ## Graphs from yields -/

theorem flatMap_subset_flatMap {items more : List α} (expand : α → List β) (hitems : items ⊆ more) :
    items.flatMap expand ⊆ more.flatMap expand := by
  intro result hresult
  obtain ⟨item, hitem, hmem⟩ := List.mem_flatMap.mp hresult
  exact List.mem_flatMap.mpr ⟨item, hitems hitem, hmem⟩

/-- The graph of some outcomes has every key of the graph of outcomes that yield no more. -/
theorem keysWithin_of_yields {outcomes more : List Outcome}
    (hyields : outcomes.map Outcome.yield ⊆ more.map Outcome.yield)
    (commitSha commitSha' : Option String) (scannedAt scannedAt' : Timestamp) :
    Graph.KeysWithin
      (ScanTools.assemble (BatchResult.ofOutcomes outcomes) commitSha scannedAt).graph
      (ScanTools.assemble (BatchResult.ofOutcomes more) commitSha' scannedAt').graph := by
  apply Graph.keysWithin_assemble
  · rw [BatchResult.nodeKeys_ofOutcomes, BatchResult.nodeKeys_ofOutcomes]
    exact flatMap_subset_flatMap Yield.nodeKeys hyields
  · rw [BatchResult.edgeKeys_ofOutcomes, BatchResult.edgeKeys_ofOutcomes]
    exact flatMap_subset_flatMap Yield.edgeKeys hyields

/-! ## Scans -/

namespace ScanTools

variable {tools : ScanTools} {options : ScanOptions} {languages : Option (List Language)}
  {known known' : KnownGrammars} {input input' : ScanInput} {scannedAt scannedAt' : Timestamp}

/-- **Moving files about is no change.**  A scan of files that are moved about returns if the scan of
the files where they were does, between the two graphs there is no difference, and as many files were
read and left out. -/
theorem scanFiles_rearranged {result : ScanResult} (hknown : known.Reached tools.installed)
    (hknown' : known'.Reached tools.installed) (hlanguages : options.languages = .ok languages)
    (hfiles : BatchSetup.Rearranged languages input.files input'.files)
    (hresult : (tools.scanFiles options input scannedAt known).value.1 = .ok result) :
    ∃ result', (tools.scanFiles options input' scannedAt' known').value.1 = .ok result' ∧
      (result.graph.diff result'.graph).isEmpty = true ∧
      (result'.graph.diff result.graph).isEmpty = true ∧
      result'.processed = result.processed ∧ result'.skipped = result.skipped := by
  rw [value_scanFiles options input scannedAt hknown, outcome_eq_ok_iff hlanguages] at hresult
  obtain ⟨hok, rfl⟩ := hresult
  -- The yields are the same up to order, so each graph has all keys of the other.
  obtain ⟨hok', hperm⟩ := BatchSetup.succeeds_and_perm_yields hok hfiles
  have hforth := keysWithin_of_yields hperm.symm.subset input.commitSha input'.commitSha
    scannedAt scannedAt'
  have hback := keysWithin_of_yields hperm.subset input'.commitSha input.commitSha
    scannedAt' scannedAt
  rw [value_scanFiles options input' scannedAt' hknown']
  refine ⟨_, (outcome_eq_ok_iff hlanguages).mpr ⟨hok', rfl⟩, ?_, ?_, ?_, ?_⟩
  · exact Graph.isEmpty_diff_iff.mpr (Graph.sameKeys_iff.mpr ⟨hforth, hback⟩)
  · exact Graph.isEmpty_diff_iff.mpr (Graph.sameKeys_iff.mpr ⟨hback, hforth⟩)
  · simp only [assemble, BatchResult.processed_ofOutcomes]
    exact hperm.countP_eq Yield.isProcessed
  · simp only [assemble, BatchResult.skipped_ofOutcomes]
    exact hperm.countP_eq Yield.isSkipped

/-- The tree of a class that extends another one. -/
def exampleTree (name superclass : String) : Syntax.Tree :=
  .node { type := "program" }
    [.node { type := "class_declaration" }
      [.node { type := "identifier", fields := ["name"], raw := .plain name } [],
        .node { type := "superclass", fields := ["superclass"] }
          [.node { type := "type_identifier", raw := .plain superclass } []]]]

/-- A pack with one grammar, by which two texts can be parsed. -/
def exampleTools : ScanTools where
  installed := { pack := .installed ⟨["java"]⟩ }
  parse := fun _ text =>
    if text = "class A extends B" then .ok (exampleTree "A" "B")
    else if text = "class B extends A" then .ok (exampleTree "B" "A")
    else .error text
  now := ⟨2026, 1, 1, 0, 0, 0, 0, some 0, Timestamp.inRange_newYear⟩

def exampleOptions : ScanOptions := { settings := .defaults }

theorem secondPath_ne : "B.java" ≠ "" := by decide

/-- Two files that refer to each other, one that cannot be parsed, and one without its grammar. -/
def exampleInput : ScanInput where
  files := [⟨"A.java", "class A extends B", SourceFile.firstPath_ne⟩,
    ⟨"B.java", "class B extends A", secondPath_ne⟩, ⟨"C.java", "class", by decide⟩,
    ⟨"d.go", "", by decide⟩]

/-- The same files in other directories and in another order. -/
def movedInput : ScanInput where
  files := [⟨"go/d.go", "", by decide⟩, ⟨"c/C.java", "class", by decide⟩,
    ⟨"a/b/B.java", "class B extends A", by decide⟩, ⟨"a/A.java", "class A extends B", by decide⟩]

theorem rearranged_movedInput :
    BatchSetup.Rearranged none exampleInput.files movedInput.files := by
  refine ⟨exampleInput.files.reverse.zip movedInput.files, ?_, rfl, ?_⟩
  · exact exampleInput.files.reverse_perm
  · intro move hmove
    simp only [exampleInput, movedInput, List.reverse_cons, List.reverse_nil, List.nil_append,
      List.cons_append, List.zip_cons_cons, List.zip_nil_right, List.mem_cons,
      List.not_mem_nil, or_false] at hmove
    rcases hmove with rfl | rfl | rfl | rfl <;>
      exact ⟨rfl, rfl, fun language hlanguage => by cases hlanguage; rfl⟩

/-- The scan of the example finds both classes, with the references between them. -/
theorem exists_exampleResult :
    ∃ result, (exampleTools.scanFiles exampleOptions exampleInput exampleTools.now {}).value.1 =
        .ok result ∧
      result.graph.edges.map Edge.key = [("A", "B", .extension), ("B", "A", .extension)] := by
  have hedges : (exampleTools.scanFiles exampleOptions exampleInput exampleTools.now
      {}).value.1.toOption.map (fun result => result.graph.edges.map Edge.key) =
        some [("A", "B", .extension), ("B", "A", .extension)] := by
    decide +kernel
  exact exists_ok_of_map_toOption hedges

theorem scanFiles_rearranged_movedInput :
    BatchSetup.Rearranged none exampleInput.files movedInput.files ∧
      ∃ result result', (exampleTools.scanFiles exampleOptions exampleInput exampleTools.now
          {}).value.1 = .ok result ∧
        result.graph.edges.map Edge.key = [("A", "B", .extension), ("B", "A", .extension)] ∧
        (exampleTools.scanFiles exampleOptions movedInput exampleTools.now {}).value.1 =
          .ok result' ∧
        (result.graph.diff result'.graph).isEmpty = true ∧
        result'.processed = result.processed := by
  obtain ⟨result, hresult, hedges⟩ := exists_exampleResult
  obtain ⟨result', hresult', hdiff, -, hprocessed, -⟩ :=
    scanFiles_rearranged .new .new rfl rearranged_movedInput hresult
  exact ⟨rearranged_movedInput, result, result', hresult, hedges, hresult', hdiff, hprocessed⟩

/-- **Files that come in take nothing away.**  If a scan returns, then so does the scan of some of its
files, and on the way from there no node and no edge is removed. -/
theorem scanFiles_of_sublist {result : ScanResult} (hknown : known.Reached tools.installed)
    (hknown' : known'.Reached tools.installed) (hfiles : input'.files.Sublist input.files)
    (hresult : (tools.scanFiles options input scannedAt known).value.1 = .ok result) :
    ∃ result', (tools.scanFiles options input' scannedAt' known').value.1 = .ok result' ∧
      (result'.graph.diff result.graph).removedNodes = [] ∧
      (result'.graph.diff result.graph).removedEdges = [] := by
  rw [value_scanFiles options input scannedAt hknown] at hresult
  obtain ⟨languages, hlanguages⟩ := exists_languages hresult
  obtain ⟨hok, rfl⟩ := (outcome_eq_ok_iff hlanguages).mp hresult
  have hok' : (tools.setup options languages).Succeeds options.settings.forcePortable
      input'.files := fun file hfile => hok file (hfiles.subset hfile)
  rw [value_scanFiles options input' scannedAt' hknown']
  refine ⟨_, (outcome_eq_ok_iff hlanguages).mpr ⟨hok', rfl⟩, ?_⟩
  apply Graph.removed_eq_nil_iff.mpr
  exact keysWithin_of_yields ((hfiles.map _).map _).subset input'.commitSha input.commitSha
    scannedAt' scannedAt

/-- The example without the file that declares `A`. -/
def partialInput : ScanInput where
  files := exampleInput.files.tail

theorem scanFiles_of_sublist_partialInput :
    partialInput.files.Sublist exampleInput.files ∧
      ∃ result result', (exampleTools.scanFiles exampleOptions exampleInput exampleTools.now
          {}).value.1 = .ok result ∧
        result.graph.edges.map Edge.key = [("A", "B", .extension), ("B", "A", .extension)] ∧
        (exampleTools.scanFiles exampleOptions partialInput exampleTools.now {}).value.1 =
          .ok result' ∧
        (result'.graph.diff result.graph).removedNodes = [] := by
  have hfiles : partialInput.files.Sublist exampleInput.files :=
    exampleInput.files.tail_sublist
  obtain ⟨result, hresult, hedges⟩ := exists_exampleResult
  obtain ⟨result', hresult', hremoved, -⟩ := scanFiles_of_sublist .new .new hfiles hresult
  exact ⟨hfiles, result, result', hresult, hedges, hresult', hremoved⟩

end ScanTools
end TypeAtlas
