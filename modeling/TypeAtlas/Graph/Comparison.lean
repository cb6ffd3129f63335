import TypeAtlas.Graph.Assembly

/-!
# Comparing graphs

The difference of two graphs goes by keys: a type that moved to another file or line is no change,
an edge whose kind changed is one edge removed and another added.  Each list of the difference keeps
the order of the graph that its items come from and has each key once.
-/

namespace TypeAtlas

/-- The first items of each key of `items` whose key does not occur in `others`. -/
def newcomers [DecidableEq κ] (key : α → κ) (items others : List α) : List α :=
  let known := others.map key
  (firsts key items).filter fun item => !known.contains (key item)

def Graph.diff (before after : Graph) : GraphDiff :=
  { addedNodes := newcomers Node.key after.nodes before.nodes
    removedNodes := newcomers Node.key before.nodes after.nodes
    addedEdges := newcomers Edge.key after.edges before.edges
    removedEdges := newcomers Edge.key before.edges after.edges }

/-- Whether a difference is another one the other way round. -/
def GraphDiff.isReverseOf (diff other : GraphDiff) : Bool :=
  diff.addedNodes = other.removedNodes && diff.removedNodes = other.addedNodes &&
    diff.addedEdges = other.removedEdges && diff.removedEdges = other.addedEdges

end TypeAtlas
