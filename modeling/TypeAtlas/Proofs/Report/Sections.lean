import TypeAtlas.Proofs.Report.Figures
import TypeAtlas.Proofs.Source.Names

/-!
# The ranked sections of the reports

Three sections of a summary and one of the report of a difference show the first items of a
ranking.  `ranked_sections_show_top` says which: the first of those that score enough, and not, as
it is computed, those that score enough among the first.  The items and their scores are given by
the nodes and edges of the graphs, and each item has a line in the text of the report.
-/

namespace TypeAtlas

open Report

/-! ## What there is to rank -/

/-- A file is in a folder: what stands before its last slash, or a dot if there is none. -/
def IsFolder (file folder : String) : Prop :=
  (∃ name : String, '/' ∉ name.toList ∧ file = folder ++ "/" ++ name) ∨
    '/' ∉ file.toList ∧ folder = "."

theorem isFolder_directoryOf (file : String) : IsFolder file (directoryOf file) := by
  rw [directoryOf]
  by_cases hslash : '/' ∈ file.toList
  · obtain ⟨segments, name, hsplit⟩ :=
      (List.eq_nil_or_concat (Text.split '/' file)).resolve_left (Text.split_ne_nil '/' file)
    rw [List.concat_eq_append] at hsplit
    have hname : '/' ∉ name.toList := Text.no_slash_of_mem_split (by rw [hsplit]; simp)
    have hfile : Text.join "/" (segments ++ [name]) = file := by
      rw [← hsplit, Text.join_split]
    rw [hsplit, List.dropLast_concat]
    cases segments with
    | nil =>
        rw [List.nil_append, Text.join, String.intercalate_singleton] at hfile
        exact absurd (hfile ▸ hslash) hname
    | cons first rest =>
        refine .inl ⟨name, hname, ?_⟩
        rw [← hfile, Text.join_append (List.cons_ne_nil first rest) (List.cons_ne_nil name [])]
        exact congrArg _ String.intercalate_singleton
  · rw [Text.split_of_not_mem hslash]
    exact .inr ⟨hslash, rfl⟩

/-- The number of types in each directory that has some, in the order of first appearance. -/
def Graph.directoryFigures (graph : Graph) : List (String × Nat) :=
  let directories := graph.nodes.map fun node => directoryOf node.file
  (firstOccurrences id directories).map fun directory => (directory, directories.count directory)

/-- The numbers of connections of the names of two graphs, in the order of first appearance in the
one and then the other. -/
def couplings (before after : Graph) : List CouplingChange :=
  (firstOccurrences id (before.nodes.map Node.name ++ after.nodes.map Node.name)).map fun name =>
    ⟨name, before.connections name, after.connections name⟩

theorem isTop_hubs (graph : Graph) :
    IsTop TypeStats.total 10 (graph.figures.filter fun stats => 0 < stats.total) graph.hubs := by
  rw [← Graph.stats_eq]
  exact isTop_filter_take_ranked TypeStats.total 0 10 graph.stats

theorem isTop_foundations (graph : Graph) :
    IsTop TypeStats.incoming 5 (graph.figures.filter fun stats => 1 < stats.incoming)
      graph.foundations := by
  rw [← Graph.stats_eq]
  exact isTop_filter_take_ranked TypeStats.incoming 1 5 graph.stats

theorem tally_directories (graph : Graph) :
    tally (graph.nodes.map fun node => directoryOf node.file) = graph.directoryFigures := by
  rw [tally_eq, firsts_eq_firstOccurrences]
  rfl

/-- Names without a change are dropped before the ranking, but they are no great changes anyway. -/
theorem filter_couplingChanges (before after : Graph) :
    (couplingChanges before after).filter (fun change => 1 < change.size) =
      (couplings before after).filter fun change => 1 < change.size := by
  simp only [couplingChanges, firsts_eq_firstOccurrences, List.filter_filter,
    Graph.totalOf_eq_connections]
  apply List.filter_congr
  intro change _
  by_cases hsame : change.before = change.after
  · simp [CouplingChange.size, Report.change, hsame]
  · simp [hsame]

theorem isTop_greatestChanges (before after : Graph) :
    IsTop CouplingChange.size 5 ((couplings before after).filter fun change => 1 < change.size)
      (greatestChanges before after) := by
  rw [← filter_couplingChanges]
  exact isTop_filter_take_ranked CouplingChange.size 1 5 (couplingChanges before after)

/-! ## What the ranked sections show -/

theorem Graph.hubLine_eq (stats : TypeStats) : hubLine stats =
    "- **" ++ stats.name ++ "** (" ++ stats.kind.name ++ "): " ++
      toString (stats.outgoing + stats.incoming) ++ " connections (" ++ toString stats.outgoing ++
      " out, " ++ toString stats.incoming ++ " in) in `" ++ stats.file ++ "`" :=
  rfl

/-- The names with an edge to a name, in the order of the edges. -/
def Graph.users (graph : Graph) (name : String) : List String :=
  firstOccurrences id ((graph.edges.filter fun edge => edge.target = name).map Edge.source)

theorem Graph.foundationLine_eq (graph : Graph) (stats : TypeStats) :
    graph.foundationLine stats = "- **" ++ stats.name ++ "**: used by " ++
      typeCount (graph.users stats.name).length ++ ": " ++
        String.intercalate ", " (graph.users stats.name) := by
  have husers : graph.dependents stats.name = graph.users stats.name := by
    rw [dependents, users, firsts_eq_firstOccurrences]
  rw [foundationLine, counted_type, husers]
  rfl

theorem Graph.directoryLine_eq (entry : String × Nat) :
    directoryLine entry = "- `" ++ entry.1 ++ "/`: " ++ typeCount entry.2 := by
  rw [directoryLine, counted_type]

theorem CouplingChange.line_eq (change : CouplingChange) : change.line =
    "- **" ++ change.name ++ "**: " ++ toString change.before ++ " → " ++ toString change.after ++
      " connections (" ++ withSign ((change.after : Int) - change.before) ++ ")" := by
  rw [line, signed_eq_withSign]
  rfl

/-- **The ranked sections omit nothing that they should show.**  The text of a summary has the types
by connections, the types by edges to them and, if there are several, the directories by types; the
text of a report of a difference has the names by how much their connections changed.  Each section
has a line for each of the first items of the ranking of those that score enough, up to a limit. -/
theorem ranked_sections_show_top (graph before after : Graph) (diff : GraphDiff) :
    (Shows graph.summary graph.summaryLines ∧
      (∃ listed,
        IsTop (fun stats => stats.outgoing + stats.incoming) 10
          (graph.figures.filter fun stats => 0 < stats.outgoing + stats.incoming) listed ∧
        HasSection graph.summaryLines "### Most connected types" (listed.map fun stats =>
          "- **" ++ stats.name ++ "** (" ++ stats.kind.name ++ "): " ++
            toString (stats.outgoing + stats.incoming) ++ " connections (" ++
            toString stats.outgoing ++ " out, " ++ toString stats.incoming ++ " in) in `" ++
            stats.file ++ "`")) ∧
      (∃ listed,
        IsTop TypeStats.incoming 5 (graph.figures.filter fun stats => 1 < stats.incoming) listed ∧
        HasSection graph.summaryLines "### Most depended-on types" (listed.map fun stats =>
          "- **" ++ stats.name ++ "**: used by " ++ typeCount (graph.users stats.name).length ++
            ": " ++ String.intercalate ", " (graph.users stats.name))) ∧
      (∀ file, IsFolder file (directoryOf file)) ∧
      ∃ listed, IsTop Prod.snd 8 graph.directoryFigures listed ∧
        HasSection graph.summaryLines "### Type distribution"
          (if 1 < graph.directoryFigures.length then
            listed.map fun entry => "- `" ++ entry.1 ++ "/`: " ++ typeCount entry.2
          else [])) ∧
    diff.report before after = String.intercalate "\n" (diff.reportLines before after) ∧
      ∃ listed,
        IsTop (fun coupling => ((coupling.after : Int) - coupling.before).natAbs) 5
          ((couplings before after).filter fun coupling =>
            1 < ((coupling.after : Int) - coupling.before).natAbs) listed ∧
        HasSection (diff.reportLines before after) "### Coupling changes"
          (listed.map fun coupling =>
            "- **" ++ coupling.name ++ "**: " ++ toString coupling.before ++ " → " ++
              toString coupling.after ++ " connections (" ++
              withSign ((coupling.after : Int) - coupling.before) ++ ")") := by
  refine ⟨⟨shows_layOut _, ⟨graph.hubs, isTop_hubs graph, ?hubs⟩,
      ⟨graph.foundations, isTop_foundations graph, ?foundations⟩, isFolder_directoryOf,
      ⟨(ranked Prod.snd graph.directoryFigures).take 8, isTop_take_ranked Prod.snd 8 _,
        ?directories⟩⟩,
    GraphDiff.report_eq,
    ⟨greatestChanges before after, isTop_greatestChanges before after, ?changes⟩⟩
  case hubs =>
    simp only [← Graph.hubLine_eq]
    exact Graph.hasSection_summaryLines (by simp [Graph.sections])
  case foundations =>
    simp only [← Graph.foundationLine_eq]
    exact Graph.hasSection_summaryLines (by simp [Graph.sections])
  case directories =>
    have hlines : graph.crowdedDirectories.map Graph.directoryLine =
        if 1 < graph.directoryFigures.length then
          ((ranked Prod.snd graph.directoryFigures).take 8).map Graph.directoryLine
        else [] := by
      rw [Graph.crowdedDirectories, tally_directories]
      split <;> rfl
    simp only [← Graph.directoryLine_eq]
    rw [← hlines]
    exact Graph.hasSection_summaryLines (by simp [Graph.sections])
  case changes =>
    simp only [← CouplingChange.line_eq]
    exact GraphDiff.hasSection_reportLines (by simp [GraphDiff.sections])

end TypeAtlas
