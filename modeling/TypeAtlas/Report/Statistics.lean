import TypeAtlas.Graph.Assembly
import TypeAtlas.Text.Lines

/-!
# Figures of a graph

How often each declared name is an end of an edge, how often each item of a list occurs, and the
first items in the order of a score.  The reports are made of these three.
-/

namespace TypeAtlas

/-- A declared name, the kind and the file of its first declaration, and the number of edges that
leave it and point at it. -/
structure TypeStats where
  name : String
  kind : NodeKind
  file : String
  outgoing : Nat
  incoming : Nat
  deriving Repr, DecidableEq

namespace TypeStats

def total (stats : TypeStats) : Nat := stats.outgoing + stats.incoming

/-- The figures of a declared name before any edge is counted. -/
def ofNode (node : Node) : TypeStats := ⟨node.name, node.kind, node.file, 0, 0⟩

/-- The figures with one more edge, which may leave the name, point at it, or both. -/
def count (edge : Edge) (stats : TypeStats) : TypeStats :=
  { stats with
    outgoing := if edge.source = stats.name then stats.outgoing + 1 else stats.outgoing
    incoming := if edge.target = stats.name then stats.incoming + 1 else stats.incoming }

end TypeStats

namespace Graph

/-- The figures of each declared name, in the order of first declaration.  One edge after the other
is counted. -/
def stats (graph : Graph) : List TypeStats :=
  graph.edges.foldl (fun table edge => table.map (TypeStats.count edge))
    ((firsts Node.name graph.nodes).map TypeStats.ofNode)

/-- The figures of a name, if it is declared. -/
def statsFor? (graph : Graph) (name : String) : Option TypeStats :=
  graph.stats.find? fun stats => stats.name = name

def totalOf (graph : Graph) (name : String) : Nat :=
  ((graph.statsFor? name).map TypeStats.total).getD 0

/-- The names with an edge to a name, in the order of their first such edge. -/
def dependents (graph : Graph) (name : String) : List String :=
  firsts id ((graph.edges.filter fun edge => edge.target = name).map Edge.source)

def isConnected (graph : Graph) (node : Node) : Bool :=
  graph.edges.any fun edge => edge.source = node.name || edge.target = node.name

def standaloneCount (graph : Graph) : Nat :=
  graph.nodes.countP fun node => !graph.isConnected node

end Graph

/-- The counts with one more occurrence of an item.  An item that is new comes last. -/
def countOne [DecidableEq α] (counts : List (α × Nat)) (item : α) : List (α × Nat) :=
  putEntry counts item ((counts.lookup item).getD 0 + 1)

/-- Each item of a list with the number of its occurrences, in the order of first occurrence. -/
def tally [DecidableEq α] (items : List α) : List (α × Nat) :=
  items.foldl countOne []

/-- The items in decreasing order of a score; equal scores keep their order. -/
def ranked (score : α → Nat) (items : List α) : List α :=
  items.mergeSort fun item other => score other ≤ score item

/-- The items of a list with their numbers, the most frequent first. -/
def frequencies [DecidableEq α] (items : List α) : List (α × Nat) :=
  ranked Prod.snd (tally items)

/-- The directory of a file: the path before the last slash, or a dot. -/
def directoryOf (file : String) : String :=
  match (Text.split '/' file).dropLast with
  | [] => "."
  | segments => Text.join "/" segments

end TypeAtlas
