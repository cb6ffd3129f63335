import TypeAtlas.Report.Statistics
import TypeAtlas.Report.Wording

/-!
# The report of a difference

What a difference adds and removes, beside the totals of the two graphs, and the names whose number
of connections changed most.  The difference need not be the one of the two graphs.
-/

namespace TypeAtlas

open Report

/-- A name and its number of connections in two graphs. -/
structure CouplingChange where
  name : String
  before : Nat
  after : Nat
  deriving Repr, DecidableEq

namespace CouplingChange

/-- By how much the number of connections changed, whichever way. -/
def size (change : CouplingChange) : Nat :=
  (Report.change change.before change.after).natAbs

def line (change : CouplingChange) : String :=
  "- **" ++ change.name ++ "**: " ++ toString change.before ++ " → " ++ toString change.after ++
    " connections (" ++ signed (Report.change change.before change.after) ++ ")"

end CouplingChange

/-- The names of both graphs whose number of connections changed, in the order of first occurrence.
-/
def couplingChanges (before after : Graph) : List CouplingChange :=
  let names := firsts id (before.nodes.map Node.name ++ after.nodes.map Node.name)
  (names.map fun name => ⟨name, before.totalOf name, after.totalOf name⟩).filter fun change =>
    change.before ≠ change.after

/-- The changes by more than one among the five greatest. -/
def greatestChanges (before after : Graph) : List CouplingChange :=
  ((ranked CouplingChange.size (couplingChanges before after)).take 5).filter fun change =>
    1 < change.size

namespace GraphDiff

def newTypeLine (after : Graph) (node : Node) : String :=
  let connections := after.totalOf node.name
  "+ **" ++ node.name ++ "** (" ++ node.kind.name ++ ") in `" ++ node.file ++ "`: " ++
    toString connections ++ " connection" ++ if connections = 1 then "" else "s"

def oldTypeLine (node : Node) : String :=
  "- **" ++ node.name ++ "** (" ++ node.kind.name ++ ") was in `" ++ node.file ++ "`"

def edgeWords (edge : Edge) : String :=
  edge.source ++ " → " ++ edge.target ++ " (" ++ edge.kind.name ++ ")"

/-- What the report adds to a new edge whose source had edges before. -/
def sourceContext (before after : Graph) (edge : Edge) : String :=
  match after.statsFor? edge.source, before.statsFor? edge.source with
  | some now, some past =>
    if 0 < past.outgoing then
      " (" ++ edge.source ++ " now has " ++ toString now.outgoing ++ " outgoing deps (was " ++
        toString past.outgoing ++ "))"
    else ""
  | _, _ => ""

def totals (graph : Graph) : String :=
  toString graph.nodes.length ++ " types, " ++ toString graph.edges.length ++ " dependencies"

/-- A count in the closing line, if it is not zero. -/
def part (items : List α) (word action : String) : List String :=
  if items.isEmpty then [] else [counted items.length word ++ " " ++ action]

def closing (diff : GraphDiff) (edgeChange : Int) : String :=
  match part diff.addedNodes "type" "added" ++ part diff.removedNodes "type" "removed" ++
      part diff.addedEdges "dep" "added" ++ part diff.removedEdges "dep" "removed" with
  | [] => "No architectural changes detected."
  | parts => Text.join ", " parts ++ ". Net coupling: " ++ signed edgeChange ++ "."

/-- The line on the differences of the totals. -/
def deltaLine (nodeChange edgeChange : Int) : String :=
  "**Delta:** " ++ signed nodeChange ++ " types, " ++ signed edgeChange ++ " dependencies"

def reportLines (diff : GraphDiff) (before after : Graph) : List String :=
  let nodeChange := change before.nodes.length after.nodes.length
  let edgeChange := change before.edges.length after.edges.length
  ["## Architecture Changes", "", "**Before:** " ++ totals before, "**After:** " ++ totals after,
    deltaLine nodeChange edgeChange, ""] ++
  titled "### New types" (diff.addedNodes.map (newTypeLine after)) ++
  titled "### Removed types" (diff.removedNodes.map oldTypeLine) ++
  titled "### New dependencies" (diff.addedEdges.map fun edge =>
    "+ " ++ edgeWords edge ++ sourceContext before after edge) ++
  titled "### Removed dependencies" (diff.removedEdges.map fun edge => "- " ++ edgeWords edge) ++
  titled "### Coupling changes" ((greatestChanges before after).map CouplingChange.line) ++
  ["### Summary", diff.closing edgeChange]

def report (diff : GraphDiff) (before after : Graph) : String :=
  layOut (diff.reportLines before after)

end GraphDiff
end TypeAtlas
