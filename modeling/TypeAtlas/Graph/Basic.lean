import TypeAtlas.Calendar.Timestamp

/-!
# Type graphs

A graph has a node for each declared type and an edge for each structural reference between types.
Edges name their ends; nodes are told apart by name and kind, edges by both ends and kind.  That a
name is not empty and that lines count from one is part of the types.

Nothing here says that an edge's ends are declared: a graph that comes from a scan has that
property, one that was saved and read back may lack it.
-/

namespace TypeAtlas

/-- The kinds of declared types. -/
inductive NodeKind where
  | classType | interfaceType | protocolType | enumType | typeAlias
  deriving Repr, DecidableEq

/-- The kinds of references between types. -/
inductive EdgeKind where
  | extension | implementation | fieldType | methodParam | methodReturn | importing
  deriving Repr, DecidableEq

namespace NodeKind

def name : NodeKind → String
  | .classType => "class"
  | .interfaceType => "interface"
  | .protocolType => "protocol"
  | .enumType => "enum"
  | .typeAlias => "type_alias"

def all : List NodeKind := [.classType, .interfaceType, .protocolType, .enumType, .typeAlias]

def ofName? (text : String) : Option NodeKind :=
  all.find? fun kind => kind.name == text

end NodeKind

namespace EdgeKind

def name : EdgeKind → String
  | .extension => "extends"
  | .implementation => "implements"
  | .fieldType => "field_type"
  | .methodParam => "method_param"
  | .methodReturn => "method_return"
  | .importing => "import"

def all : List EdgeKind :=
  [.extension, .implementation, .fieldType, .methodParam, .methodReturn, .importing]

def ofName? (text : String) : Option EdgeKind :=
  all.find? fun kind => kind.name == text

end EdgeKind

/-- A declared type: its name as written, its kind, and where it is declared. -/
structure Node where
  name : String
  kind : NodeKind
  file : String
  line : Nat
  name_ne : name ≠ ""
  line_pos : 0 < line
  deriving DecidableEq

/-- A reference from one type to another, by name. -/
structure Edge where
  source : String
  target : String
  kind : EdgeKind
  source_ne : source ≠ ""
  target_ne : target ≠ ""
  deriving DecidableEq

/-- What tells nodes apart. -/
abbrev NodeKey := String × NodeKind

/-- What tells edges apart. -/
abbrev EdgeKey := String × String × EdgeKind

def Node.key (node : Node) : NodeKey := (node.name, node.kind)

def Edge.key (edge : Edge) : EdgeKey := (edge.source, edge.target, edge.kind)

def Edge.describe (edge : Edge) : String :=
  edge.source ++ " -> " ++ edge.target ++ " (" ++ edge.kind.name ++ ")"

/-- The nodes and edges of one file. -/
structure Fragment where
  nodes : List Node := []
  edges : List Edge := []
  deriving DecidableEq

def Fragment.isEmpty (fragment : Fragment) : Bool :=
  fragment.nodes.isEmpty && fragment.edges.isEmpty

/-- A snapshot of one scan: nodes and edges in scan order, when it was taken, and of which commit.
-/
structure Graph where
  nodes : List Node
  edges : List Edge
  scannedAt : Timestamp
  commitSha : Option String
  deriving DecidableEq

/-- The first node with a name, of whatever kind. -/
def Graph.find? (graph : Graph) (name : String) : Option Node :=
  graph.nodes.find? fun node => node.name == name

/-- The difference between two graphs. -/
structure GraphDiff where
  addedNodes : List Node := []
  removedNodes : List Node := []
  addedEdges : List Edge := []
  removedEdges : List Edge := []
  deriving DecidableEq

def GraphDiff.isEmpty (diff : GraphDiff) : Bool :=
  diff.addedNodes.isEmpty && diff.removedNodes.isEmpty && diff.addedEdges.isEmpty &&
    diff.removedEdges.isEmpty

end TypeAtlas
