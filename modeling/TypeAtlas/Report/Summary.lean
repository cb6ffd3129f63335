import TypeAtlas.Report.Statistics
import TypeAtlas.Report.Wording

/-!
# The summary of a graph

Totals, the kinds of types and edges, and three ranked sections: the most connected types, those
that most depend on, and the directories with the most types.  At the end stands how many types
nothing is connected to.
-/

namespace TypeAtlas

open Report

namespace Graph

/-- The types with connections among the ten with the most. -/
def hubs (graph : Graph) : List TypeStats :=
  ((ranked TypeStats.total graph.stats).take 10).filter fun stats => 0 < stats.total

/-- The types with several edges to them among the five with the most. -/
def foundations (graph : Graph) : List TypeStats :=
  ((ranked TypeStats.incoming graph.stats).take 5).filter fun stats => 1 < stats.incoming

/-- The eight directories with the most types; none if there is only one directory. -/
def crowdedDirectories (graph : Graph) : List (String × Nat) :=
  let directories := tally (graph.nodes.map fun node => directoryOf node.file)
  if 1 < directories.length then (ranked Prod.snd directories).take 8 else []

def hubLine (hub : TypeStats) : String :=
  "- **" ++ hub.name ++ "** (" ++ hub.kind.name ++ "): " ++ toString hub.total ++
    " connections (" ++ toString hub.outgoing ++ " out, " ++ toString hub.incoming ++ " in) in `" ++
    hub.file ++ "`"

def foundationLine (graph : Graph) (stats : TypeStats) : String :=
  let names := graph.dependents stats.name
  "- **" ++ stats.name ++ "**: used by " ++ counted names.length "type" ++ ": " ++
    Text.join ", " names

def directoryLine (entry : String × Nat) : String :=
  "- `" ++ entry.1 ++ "/`: " ++ counted entry.2 "type"

/-- The number of types of each kind, the most frequent kind first. -/
def kindParts (graph : Graph) : List String :=
  (frequencies (graph.nodes.map Node.kind)).map fun (kind, count) =>
    toString count ++ " " ++ plural kind.name count

/-- The number of edges of each kind, the most frequent kind first. -/
def edgeParts (graph : Graph) : List String :=
  (frequencies (graph.edges.map Edge.kind)).map fun (kind, count) =>
    toString count ++ " " ++ kind.name

def totalsLine (graph : Graph) : String :=
  "**" ++ toString graph.nodes.length ++ "** types across **" ++
    toString (firsts id (graph.nodes.map Node.file)).length ++ "** files, **" ++
    toString graph.edges.length ++ "** dependencies"

/-- The line on types that nothing is connected to. -/
def standaloneLine (count : Nat) : String :=
  "*" ++ counted count "type" ++ " with no dependencies (standalone).*"

def summaryLines (graph : Graph) : List String :=
  ["## Dependency Graph Summary", "", graph.totalsLine, "",
    "**Types:** " ++ Text.join ", " graph.kindParts,
    "**Edges:** " ++ Text.join ", " graph.edgeParts, ""] ++
  titled "### Most connected types" (graph.hubs.map hubLine) ++
  titled "### Most depended-on types" (graph.foundations.map graph.foundationLine) ++
  titled "### Type distribution" (graph.crowdedDirectories.map directoryLine) ++
  if 0 < graph.standaloneCount then [standaloneLine graph.standaloneCount, ""] else []

def summary (graph : Graph) : String := layOut graph.summaryLines

end Graph
end TypeAtlas
