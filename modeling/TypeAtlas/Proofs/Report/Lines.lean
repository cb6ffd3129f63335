import TypeAtlas.Proofs.Report.Layout
import TypeAtlas.Report.Changes
import TypeAtlas.Report.Summary

/-!
# The lines of the two reports

Between the lines at the top and those at the end, both reports are made of sections of items:
`Graph.sections` and `GraphDiff.sections`.  So each section is found under its heading
(`Graph.hasSection_summaryLines`, `GraphDiff.hasSection_reportLines`), and the lines with figures of
the whole report are those at the top and at the end only.
-/

namespace TypeAtlas

open Report

theorem isItem_of_mem_map {items : List α} {write : α → String}
    (hwrite : ∀ item, IsItem (write item)) :
    ∀ line ∈ items.map write, IsItem line := by
  intro line hline
  obtain ⟨item, -, rfl⟩ := List.mem_map.mp hline
  exact hwrite item

/-! ## The summary of a graph -/

namespace Graph

theorem isItem_hubLine (hub : TypeStats) : IsItem (hubLine hub) := by
  unfold hubLine
  repeat apply IsItem.append
  decide

theorem isItem_foundationLine (graph : Graph) (stats : TypeStats) :
    IsItem (graph.foundationLine stats) := by
  unfold foundationLine
  repeat apply IsItem.append
  decide

theorem isItem_directoryLine (entry : String × Nat) : IsItem (directoryLine entry) := by
  unfold directoryLine
  repeat apply IsItem.append
  decide

theorem isFigure_standaloneLine (count : Nat) : IsFigure (standaloneLine count) := by
  unfold standaloneLine
  repeat apply Begins.append
  decide

theorem isFigure_totalsLine (graph : Graph) : IsFigure graph.totalsLine := by
  unfold totalsLine
  repeat apply Begins.append
  decide

/-- The ranked sections of a summary. -/
def sections (graph : Graph) : List (String × List String) :=
  [("### Most connected types", graph.hubs.map hubLine),
    ("### Most depended-on types", graph.foundations.map graph.foundationLine),
    ("### Type distribution", graph.crowdedDirectories.map directoryLine)]

/-- The lines above the sections. -/
def overviewLines (graph : Graph) : List String :=
  ["## Dependency Graph Summary", "", graph.totalsLine, "",
    "**Types:** " ++ Text.join ", " graph.kindParts,
    "**Edges:** " ++ Text.join ", " graph.edgeParts, ""]

/-- The lines below the sections. -/
def standaloneLines (graph : Graph) : List String :=
  if 0 < graph.standaloneCount then [standaloneLine graph.standaloneCount, ""] else []

theorem summaryLines_eq (graph : Graph) : graph.summaryLines = graph.overviewLines ++
    graph.sections.flatMap (fun part => titled part.1 part.2) ++ graph.standaloneLines := by
  simp [summaryLines, overviewLines, sections, standaloneLines]

theorem map_fst_sections (graph : Graph) : graph.sections.map Prod.fst =
    ["### Most connected types", "### Most depended-on types", "### Type distribution"] :=
  rfl

theorem isItem_of_mem_sections (graph : Graph) :
    ∀ part ∈ graph.sections, ∀ line ∈ part.2, IsItem line := by
  simp only [sections, List.forall_mem_cons]
  exact ⟨isItem_of_mem_map isItem_hubLine, isItem_of_mem_map graph.isItem_foundationLine,
    isItem_of_mem_map isItem_directoryLine, nofun⟩

/-- The sections have no lines with figures of the whole graph. -/
theorem not_isFigure_sections (graph : Graph) :
    ∀ line ∈ graph.sections.flatMap (fun part => titled part.1 part.2), ¬ IsFigure line := by
  apply not_isFigure_of_mem_sections _ graph.isItem_of_mem_sections
  rw [map_fst_sections]
  decide

theorem not_mem_overviewLines {graph : Graph} {heading : String} (hheading : IsHeading heading)
    (hne : heading ≠ "## Dependency Graph Summary") : heading ∉ graph.overviewLines := by
  have hempty : ¬ IsHeading "" := by decide
  rw [overviewLines, List.mem_cons, not_or]
  refine ⟨hne, hheading.not_mem ?_⟩
  simp only [List.forall_mem_cons]
  exact ⟨hempty, graph.isFigure_totalsLine.not_isHeading, hempty,
    IsFigure.not_isHeading_append (by decide) _,
    IsFigure.not_isHeading_append (by decide) _, hempty, nofun⟩

theorem not_mem_standaloneLines {graph : Graph} {heading : String} (hheading : IsHeading heading) :
    heading ∉ graph.standaloneLines := by
  apply hheading.not_mem
  rw [standaloneLines]
  split
  · simp only [List.forall_mem_cons]
    exact ⟨(isFigure_standaloneLine _).not_isHeading, by decide, nofun⟩
  · exact nofun

theorem hasSection_summaryLines {graph : Graph} {heading : String} {lines : List String}
    (hmem : (heading, lines) ∈ graph.sections) : HasSection graph.summaryLines heading lines := by
  have hheadings : ∀ title ∈ graph.sections.map Prod.fst,
      IsHeading title ∧ title ≠ "## Dependency Graph Summary" := by
    rw [map_fst_sections]
    decide
  obtain ⟨hheading, hne⟩ := hheadings heading (List.mem_map_of_mem hmem)
  have hdistinct : (graph.sections.map Prod.fst).Nodup := by
    rw [map_fst_sections]
    decide
  rw [summaryLines_eq]
  exact hasSection_of_mem hdistinct graph.isItem_of_mem_sections (not_mem_overviewLines hheading hne)
    (not_mem_standaloneLines hheading) hheading hmem

end Graph

/-! ## The report of a difference -/

theorem CouplingChange.isItem_line (change : CouplingChange) : IsItem change.line := by
  unfold line
  repeat apply IsItem.append
  decide

namespace GraphDiff

theorem isItem_newTypeLine (after : Graph) (node : Node) : IsItem (newTypeLine after node) := by
  unfold newTypeLine
  repeat apply IsItem.append
  decide

theorem isItem_oldTypeLine (node : Node) : IsItem (oldTypeLine node) := by
  unfold oldTypeLine
  repeat apply IsItem.append
  decide

theorem isItem_addedEdgeLine (before after : Graph) (edge : Edge) :
    IsItem ("+ " ++ edgeWords edge ++ sourceContext before after edge) := by
  repeat apply IsItem.append
  decide

theorem isItem_removedEdgeLine (edge : Edge) : IsItem ("- " ++ edgeWords edge) :=
  IsItem.append (by decide) _

theorem isFigure_deltaLine (nodeChange edgeChange : Int) :
    IsFigure (deltaLine nodeChange edgeChange) := by
  unfold deltaLine
  repeat apply Begins.append
  decide

/-- Whatever it says, the last line ends in a full stop. -/
theorem getLast?_closing (diff : GraphDiff) (edgeChange : Int) :
    (diff.closing edgeChange).toList.getLast? = some '.' := by
  unfold closing
  split
  · decide
  · rw [String.toList_append, List.getLast?_append]
    rfl

/-- The sections of a report of a difference, but for the last one. -/
def sections (diff : GraphDiff) (before after : Graph) : List (String × List String) :=
  [("### New types", diff.addedNodes.map (newTypeLine after)),
    ("### Removed types", diff.removedNodes.map oldTypeLine),
    ("### New dependencies", diff.addedEdges.map fun edge =>
      "+ " ++ edgeWords edge ++ sourceContext before after edge),
    ("### Removed dependencies", diff.removedEdges.map fun edge => "- " ++ edgeWords edge),
    ("### Coupling changes", (greatestChanges before after).map CouplingChange.line)]

/-- The lines above the sections. -/
def overviewLines (before after : Graph) : List String :=
  ["## Architecture Changes", "", "**Before:** " ++ totals before, "**After:** " ++ totals after,
    deltaLine (change before.nodes.length after.nodes.length)
      (change before.edges.length after.edges.length), ""]

variable {diff : GraphDiff} {before after : Graph}

theorem reportLines_eq : diff.reportLines before after = overviewLines before after ++
    (diff.sections before after).flatMap (fun part => titled part.1 part.2) ++
    ["### Summary", diff.closing (change before.edges.length after.edges.length)] := by
  simp [reportLines, overviewLines, sections]

theorem map_fst_sections : (diff.sections before after).map Prod.fst =
    ["### New types", "### Removed types", "### New dependencies", "### Removed dependencies",
      "### Coupling changes"] :=
  rfl

theorem isItem_of_mem_sections :
    ∀ part ∈ diff.sections before after, ∀ line ∈ part.2, IsItem line := by
  simp only [sections, List.forall_mem_cons]
  exact ⟨isItem_of_mem_map (isItem_newTypeLine after), isItem_of_mem_map isItem_oldTypeLine,
    isItem_of_mem_map (isItem_addedEdgeLine before after), isItem_of_mem_map isItem_removedEdgeLine,
    isItem_of_mem_map CouplingChange.isItem_line, nofun⟩

/-- The sections have no lines with figures of the whole difference. -/
theorem not_isFigure_sections : ∀ line ∈ (diff.sections before after).flatMap
    (fun part => titled part.1 part.2), ¬ IsFigure line := by
  apply not_isFigure_of_mem_sections _ isItem_of_mem_sections
  rw [map_fst_sections]
  decide

theorem not_mem_overviewLines {heading : String} (hheading : IsHeading heading)
    (hne : heading ≠ "## Architecture Changes") : heading ∉ overviewLines before after := by
  have hempty : ¬ IsHeading "" := by decide
  rw [overviewLines, List.mem_cons, not_or]
  refine ⟨hne, hheading.not_mem ?_⟩
  simp only [List.forall_mem_cons]
  exact ⟨hempty, IsFigure.not_isHeading_append (by decide) _,
    IsFigure.not_isHeading_append (by decide) _,
    (isFigure_deltaLine _ _).not_isHeading, hempty, nofun⟩

theorem hasSection_reportLines {heading : String} {lines : List String}
    (hmem : (heading, lines) ∈ diff.sections before after) :
    HasSection (diff.reportLines before after) heading lines := by
  have hheadings : ∀ title ∈ (diff.sections before after).map Prod.fst,
      IsHeading title ∧ title ≠ "## Architecture Changes" ∧ title ≠ "### Summary" ∧
        title.toList.getLast? ≠ some '.' := by
    rw [map_fst_sections]
    decide
  obtain ⟨hheading, hneFirst, hneLast, hstop⟩ := hheadings heading (List.mem_map_of_mem hmem)
  have hdistinct : ((diff.sections before after).map Prod.fst).Nodup := by
    rw [map_fst_sections]
    decide
  -- The last line ends in a full stop, as no heading does.
  have hclosing : heading ≠ diff.closing (change before.edges.length after.edges.length) := by
    rintro rfl
    exact hstop (getLast?_closing diff _)
  rw [reportLines_eq]
  apply hasSection_of_mem hdistinct isItem_of_mem_sections (not_mem_overviewLines hheading hneFirst)
    _ hheading hmem
  simp [hneLast, hclosing]

/-- Nothing is cut off the end of the report, as its last line ends in a full stop. -/
theorem report_eq : diff.report before after =
    String.intercalate "\n" (diff.reportLines before after) := by
  have hlast := getLast?_closing diff (change before.edges.length after.edges.length)
  have hsplit : diff.reportLines before after = (overviewLines before after ++
      (diff.sections before after).flatMap (fun part => titled part.1 part.2) ++ ["### Summary"]) ++
        [diff.closing (change before.edges.length after.edges.length)] := by
    rw [reportLines_eq, List.append_assoc _ ["### Summary"]]
    rfl
  rw [report, hsplit]
  exact layOut_append_singleton (by simp) hlast

theorem begins_report : Begins '#' (diff.report before after) := by
  rw [report_eq, reportLines_eq, overviewLines, List.cons_append, List.cons_append,
    String.intercalate_cons_of_ne_nil (by simp), String.append_assoc]
  exact Begins.append (by decide) _

end GraphDiff
end TypeAtlas
