import TypeAtlas.Graph.Document

/-!
# Building the fragment of a file

A builder collects the nodes and edges of one file.  A node or an edge that is not valid is refused
and leaves everything as it was, and so do all the edges of one call together: names that are empty
or built in never become edges, and what may still be wrong with an edge, its owner or its kind, is
the same for every edge of the call.
-/

namespace TypeAtlas

/-- The nodes and edges of a file so far, in reverse, with the names that never become edges. -/
structure Builder where
  file : String
  builtins : List String
  nodes : List Node := []
  edges : List Edge := []

namespace Builder

/-- With one more node, declared in a row that is counted from zero. -/
def addNode (builder : Builder) (name kind : String) (row : Int) :
    Except ValidationReport Builder :=
  (Node.check (.obj [("name", .str name), ("kind", .str kind), ("file", .str builder.file),
    ("line", .ofInt (row + 1))])).map fun node => { builder with nodes := node :: builder.nodes }

def admits (builder : Builder) (name : String) : Bool :=
  name ≠ "" && !builder.builtins.contains name

def edge (owner target kind : String) : Except ValidationReport Edge :=
  Edge.check (.obj [("source", .str owner), ("target", .str target), ("kind", .str kind)])

/-- With one more edge from the owner for each name that may be a target, until one is not valid:
the builder then has the edges before it, and what is wrong with that one is the second part. -/
def addEdges (builder : Builder) (owner : String) (names : List String) (kind : String) :
    Builder × Except ValidationReport Unit :=
  match names with
  | [] => (builder, .ok ())
  | name :: rest =>
    if builder.admits name then
      match edge owner name kind with
      | .ok edge => addEdges { builder with edges := edge :: builder.edges } owner rest kind
      | .error report => (builder, .error report)
    else addEdges builder owner rest kind

def build (builder : Builder) : Fragment :=
  ⟨builder.nodes.reverse, builder.edges.reverse⟩

end Builder
end TypeAtlas
