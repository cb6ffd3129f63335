import TypeAtlas.Failure
import TypeAtlas.Graph.Basic
import TypeAtlas.Json.Reader
import TypeAtlas.Validation.Field

/-!
# Graphs and differences as documents

The written form of a graph and of a difference, and the way back.  Writing gives every field,
except a commit that is not known, under one name and in one order.  Reading also takes the second
name of a field and the generous forms of `Field`, wants nothing that is not a field, and reports
all that is wrong in the order of the fields.
-/

namespace TypeAtlas

/-! ## Writing -/

def Node.toJson (node : Node) : Json :=
  .obj [("name", .str node.name), ("kind", .str node.kind.name), ("file", .str node.file),
    ("line", .ofNat node.line)]

def Edge.toJson (edge : Edge) : Json :=
  .obj [("from", .str edge.source), ("to", .str edge.target), ("kind", .str edge.kind.name)]

def Graph.toJson (graph : Graph) : Json :=
  .obj ([("nodes", .arr (graph.nodes.map Node.toJson)),
    ("edges", .arr (graph.edges.map Edge.toJson)),
      ("scannedAt", .str graph.scannedAt.render)] ++
    match graph.commitSha with
    | none => []
    | some sha => [("commitSha", .str sha)])

def GraphDiff.toJson (diff : GraphDiff) : Json :=
  .obj [("addedNodes", .arr (diff.addedNodes.map Node.toJson)),
    ("removedNodes", .arr (diff.removedNodes.map Node.toJson)),
    ("addedEdges", .arr (diff.addedEdges.map Edge.toJson)),
    ("removedEdges", .arr (diff.removedEdges.map Edge.toJson))]

def Graph.document (graph : Graph) : String := graph.toJson.indented

def GraphDiff.document (diff : GraphDiff) : String := diff.toJson.indented

/-! ## Reading -/

def Field.timestamp (input : Json) : Checked Timestamp :=
  match Timestamp.ofJson input with
  | .ok time => .ok time
  | .error fault => .fail (.badTime fault) input

def Field.nodeKind : Json → Checked NodeKind :=
  Field.member NodeKind.ofName? (NodeKind.all.map NodeKind.name)

def Field.edgeKind : Json → Checked EdgeKind :=
  Field.member EdgeKind.ofName? (EdgeKind.all.map EdgeKind.name)

def Node.ofJson (input : Json) : Checked Node :=
  Field.object (fun fields =>
    (((((Field.required input fields ["name"] Field.nonempty).both
      (Field.required input fields ["kind"] Field.nodeKind)).both
      (Field.required input fields ["file"] Field.text)).both
      (Field.required input fields ["line"] Field.positive)).both
      (Field.extras fields [["name"], ["kind"], ["file"], ["line"]])).map
        fun ((((name, kind), file), line), _) =>
          ⟨name.text, kind, file, line.count, name.ne_empty, line.pos⟩) input

/-- The node that a value stands for, or a report of what is wrong. -/
def Node.check (input : Json) : Except ValidationReport Node :=
  (ofJson input).titled "GraphNode"

def Edge.ofJson (input : Json) : Checked Edge :=
  Field.object (fun fields =>
    ((((Field.required input fields ["from", "source"] Field.nonempty).both
      (Field.required input fields ["to", "target"] Field.nonempty)).both
      (Field.required input fields ["kind"] Field.edgeKind)).both
      (Field.extras fields [["from", "source"], ["to", "target"], ["kind"]])).map
        fun (((source, target), kind), _) =>
          ⟨source.text, target.text, kind, source.ne_empty, target.ne_empty⟩) input

/-- The edge that a value stands for, or a report of what is wrong. -/
def Edge.check (input : Json) : Except ValidationReport Edge :=
  (ofJson input).titled "GraphEdge"

def Graph.ofJson (input : Json) : Checked Graph :=
  Field.object (fun fields =>
    (((((Field.optional fields ["nodes"] [] (Field.array .notArray Node.ofJson)).both
      (Field.optional fields ["edges"] [] (Field.array .notArray Edge.ofJson))).both
      (Field.required input fields ["scannedAt", "scanned_at"] Field.timestamp)).both
      (Field.optional fields ["commitSha", "commit_sha"] none Field.textOrNull)).both
      (Field.extras fields
        [["nodes"], ["edges"], ["scannedAt", "scanned_at"], ["commitSha", "commit_sha"]])).map
        fun ((((nodes, edges), scannedAt), commitSha), _) => ⟨nodes, edges, scannedAt, commitSha⟩)
    input

def GraphDiff.ofJson (input : Json) : Checked GraphDiff :=
  Field.object (fun fields =>
    let nodes := Field.array .notArray Node.ofJson
    let edges := Field.array .notArray Edge.ofJson
    (((((Field.optional fields ["addedNodes", "added_nodes"] [] nodes).both
      (Field.optional fields ["removedNodes", "removed_nodes"] [] nodes)).both
      (Field.optional fields ["addedEdges", "added_edges"] [] edges)).both
      (Field.optional fields ["removedEdges", "removed_edges"] [] edges)).both
      (Field.extras fields
        [["addedNodes", "added_nodes"], ["removedNodes", "removed_nodes"],
          ["addedEdges", "added_edges"], ["removedEdges", "removed_edges"]])).map
        fun ((((addedNodes, removedNodes), addedEdges), removedEdges), _) =>
          ⟨addedNodes, removedNodes, addedEdges, removedEdges⟩) input

/-- What is reported of a document with issues: how many they are, and the first. -/
def formatFailure (message : String) (issues : List Issue) : Failure :=
  let first := match issues with
    | [] => ""
    | issue :: _ =>
      if issue.location.isEmpty then issue.problem.message
      else issue.path ++ ": " ++ issue.problem.message
  ⟨.format message, .obj [("errors", .ofNat issues.length), ("first", .str first)]⟩

def readDocument (check : Json → Checked α) (pieces : List Utf8.Piece) : Checked α :=
  match Json.read .strict pieces with
  | .error fault => .fail (.malformed (fault.describe pieces)) .null
  | .ok value => check value

def Graph.ofDocument (pieces : List Utf8.Piece) : Except Failure Graph :=
  (readDocument Graph.ofJson pieces).mapError (formatFailure "Malformed dependency graph document")

def GraphDiff.ofDocument (pieces : List Utf8.Piece) : Except Failure GraphDiff :=
  (readDocument GraphDiff.ofJson pieces).mapError (formatFailure "Malformed graph diff document")

def Graph.ofText (text : String) : Except Failure Graph :=
  ofDocument (text.toList.map .char)

def GraphDiff.ofText (text : String) : Except Failure GraphDiff :=
  ofDocument (text.toList.map .char)

end TypeAtlas
