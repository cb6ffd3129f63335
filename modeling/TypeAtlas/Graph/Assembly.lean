import TypeAtlas.Entries
import TypeAtlas.Graph.Basic

/-!
# Assembling a graph

The nodes and edges of all files, in scan order, become one graph: of the items with one key the
first stays, and an edge stays only if both its ends are declared and differ.
-/

namespace TypeAtlas

def Edge.joins (names : List String) (edge : Edge) : Bool :=
  edge.source ≠ edge.target && names.contains edge.source && names.contains edge.target

def Graph.assemble (nodes : List Node) (edges : List Edge) (commitSha : Option String)
    (scannedAt : Timestamp) : Graph :=
  let unique := firsts Node.key nodes
  let names := unique.map Node.name
  { nodes := unique
    edges := firsts Edge.key (edges.filter (Edge.joins names))
    scannedAt
    commitSha }

/-- The graph of the given fragments, one after the other. -/
def Graph.ofFragments (fragments : List Fragment) (commitSha : Option String)
    (scannedAt : Timestamp) : Graph :=
  assemble (fragments.flatMap Fragment.nodes) (fragments.flatMap Fragment.edges) commitSha scannedAt

end TypeAtlas
