import TypeAtlas.Graph.Document
import TypeAtlas.Proofs.Calendar.WrittenForm
import TypeAtlas.Proofs.Json.Reading

/-!
# Graphs are read back from their documents

`Graph.ofText_document` says what reading the document of a graph gives: the graph itself, as long as
no line number has more digits than a reader takes, and otherwise a failure that says so.

There are two ways to go back, and each is inverted on its own.  A value is read back from its text
by `Json.read_indented`, for which a graph's value has to be plain, and its numbers short.  A node, an
edge or a graph is read back from its value by going through its fields: each check takes what was
written, and no key is left over.
-/

namespace TypeAtlas

/-! ## Nodes, edges and graphs from their values -/

theorem NodeKind.ofName?_name (kind : NodeKind) : ofName? kind.name = some kind := by
  cases kind <;> decide

theorem EdgeKind.ofName?_name (kind : EdgeKind) : ofName? kind.name = some kind := by
  cases kind <;> decide

theorem Field.nonempty_str {value : String} (hvalue : value ≠ "") :
    nonempty (.str value) = .ok ⟨value, hvalue⟩ :=
  dif_pos hvalue

theorem Field.positive_ofNat {count : Nat} (hcount : 0 < count) :
    positive (.ofNat count) = .ok ⟨count, hcount⟩ :=
  dif_pos hcount

theorem Checked.eachFrom_map {check : Json → Checked α} {toJson : α → Json}
    (hread : ∀ item, check (toJson item) = .ok item) (start : Nat) (items : List α) :
    eachFrom check start (items.map toJson) = .ok items := by
  induction items generalizing start with
  | nil => rfl
  | cons item items ih =>
      rw [List.map_cons, eachFrom, hread, ih]
      rfl

theorem Field.array_map {check : Json → Checked α} {toJson : α → Json} {problem : Problem}
    (hread : ∀ item, check (toJson item) = .ok item) (items : List α) :
    array problem check (.arr (items.map toJson)) = .ok items :=
  Checked.eachFrom_map hread 0 items

theorem Field.nodeKind_str (kind : NodeKind) : nodeKind (.str kind.name) = .ok kind := by
  simp only [nodeKind, member, named, NodeKind.ofName?_name]

theorem Field.edgeKind_str (kind : EdgeKind) : edgeKind (.str kind.name) = .ok kind := by
  simp only [edgeKind, member, named, EdgeKind.ofName?_name]

theorem Field.timestamp_str {time : Timestamp} (hzone : time.HasMinuteZone) :
    timestamp (.str time.render) = .ok time := by
  simp only [timestamp, Timestamp.ofJson, Timestamp.ofText_render hzone]

theorem Node.ofJson_toJson (node : Node) : ofJson node.toJson = .ok node := by
  simp [ofJson, toJson, Field.object, Field.required, Field.extras, Field.chosen?, Json.lookup?]
  rw [Field.nonempty_str node.name_ne, Field.nodeKind_str, Field.positive_ofNat node.line_pos]
  rfl

theorem Edge.ofJson_toJson (edge : Edge) : ofJson edge.toJson = .ok edge := by
  simp [ofJson, toJson, Field.object, Field.required, Field.extras, Field.chosen?, Json.lookup?]
  rw [Field.nonempty_str edge.source_ne, Field.nonempty_str edge.target_ne, Field.edgeKind_str]
  rfl

theorem Graph.ofJson_toJson {graph : Graph} (hzone : graph.scannedAt.HasMinuteZone) :
    ofJson graph.toJson = .ok graph := by
  obtain ⟨nodes, edges, scannedAt, commitSha⟩ := graph
  have hstamp := Field.timestamp_str hzone
  cases commitSha with
  | none =>
      simp [ofJson, toJson, Field.object, Field.required, Field.optional, Field.extras, Field.chosen?,
        Json.lookup?, Field.array_map Node.ofJson_toJson, Field.array_map Edge.ofJson_toJson, hstamp]
      rfl
  | some sha =>
      simp [ofJson, toJson, Field.object, Field.required, Field.optional, Field.extras, Field.chosen?,
        Json.lookup?, Field.array_map Node.ofJson_toJson, Field.array_map Edge.ofJson_toJson, hstamp]
      rfl

/-! ## Values that can be read back -/

namespace Json

theorem arePlain_map {toJson : α → Json} {room : Nat} (hplain : ∀ item, IsPlain room (toJson item))
    (items : List α) : ArePlain room (items.map toJson) := by
  induction items with
  | nil => trivial
  | cons item items ih => exact ⟨hplain item, ih⟩

theorem areShort_map {toJson : α → Json} (items : List α) :
    AreShort (items.map toJson) ↔ ∀ item ∈ items, IsShort (toJson item) := by
  induction items with
  | nil => simp [AreShort]
  | cons item items ih => simp [AreShort, ih]

end Json

theorem Node.isPlain_toJson (room : Nat) (node : Node) : Json.IsPlain (room + 1) node.toJson := by
  simp [toJson, Json.IsPlain, Json.FieldsArePlain, Json.ofNat]

theorem Edge.isPlain_toJson (room : Nat) (edge : Edge) : Json.IsPlain (room + 1) edge.toJson := by
  simp [toJson, Json.IsPlain, Json.FieldsArePlain]

theorem Node.isShort_toJson (node : Node) :
    Json.IsShort node.toJson ↔ digitCount node.line ≤ Json.wholeDigitLimit := by
  simp [toJson, Json.IsShort, Json.FieldsAreShort, Json.ofNat]

theorem Edge.isShort_toJson (edge : Edge) : Json.IsShort edge.toJson := by
  simp [toJson, Json.IsShort, Json.FieldsAreShort]

theorem Graph.isPlain_toJson (graph : Graph) : Json.IsPlain Json.depthLimit graph.toJson := by
  have hnodes := Json.arePlain_map (Node.isPlain_toJson (Json.depthLimit - 3)) graph.nodes
  have hedges := Json.arePlain_map (Edge.isPlain_toJson (Json.depthLimit - 3)) graph.edges
  refine ⟨hnodes, hedges, trivial, ?_⟩
  cases graph.commitSha <;> simp [Json.FieldsArePlain, Json.IsPlain]

/-- No line number of a graph has more digits than a reader takes. -/
def Graph.HasShortLines (graph : Graph) : Prop :=
  ∀ node ∈ graph.nodes, digitCount node.line ≤ Json.wholeDigitLimit

theorem Graph.isShort_toJson (graph : Graph) : Json.IsShort graph.toJson ↔ graph.HasShortLines := by
  have hnodes : Json.AreShort (graph.nodes.map Node.toJson) ↔ graph.HasShortLines := by
    simp only [Json.areShort_map, Node.isShort_toJson, HasShortLines]
  have hedges : Json.AreShort (graph.edges.map Edge.toJson) :=
    (Json.areShort_map graph.edges).mpr fun edge _ => edge.isShort_toJson
  rw [toJson]
  cases graph.commitSha <;> simp [Json.IsShort, Json.FieldsAreShort, hnodes, hedges]

/-! ## Documents -/

theorem readDocument_of_isShort (check : Json → Checked α) {value : Json}
    (hplain : Json.IsPlain Json.depthLimit value) (hshort : Json.IsShort value) :
    readDocument check (value.indented.toList.map .char) = check value := by
  rw [readDocument, (Json.read_indented hplain).1 hshort]

theorem readDocument_of_not_isShort (check : Json → Checked α) {value : Json}
    (hplain : Json.IsPlain Json.depthLimit value) (hlong : ¬ Json.IsShort value) :
    ∃ report, readDocument check (value.indented.toList.map .char) =
      .fail (.malformed report) .null := by
  obtain ⟨fault, hfault⟩ := (Json.read_indented hplain).2 hlong
  exact ⟨_, by rw [readDocument, hfault]⟩

namespace Graph

theorem ofText_of_hasShortLines {graph : Graph} (hzone : graph.scannedAt.HasMinuteZone)
    (hshort : graph.HasShortLines) : ofText graph.document = .ok graph := by
  rw [ofText, ofDocument, document,
    readDocument_of_isShort _ graph.isPlain_toJson (graph.isShort_toJson.mpr hshort),
    ofJson_toJson hzone]
  rfl

theorem ofText_of_not_hasShortLines {graph : Graph} (hlong : ¬ graph.HasShortLines) :
    ∃ report, ofText graph.document = .error (formatFailure "Malformed dependency graph document"
      [⟨[], .malformed report, .null⟩]) := by
  obtain ⟨report, hreport⟩ := readDocument_of_not_isShort ofJson graph.isPlain_toJson
    fun hshort => hlong (graph.isShort_toJson.mp hshort)
  refine ⟨report, ?_⟩
  rw [ofText, ofDocument, document, hreport]
  rfl

/-- **What comes of reading a saved graph.**  It is the graph itself if no line number is too long
for a reader, and else a failure with one issue: the document is no JSON that the reader takes. -/
theorem ofText_document {graph : Graph} (hzone : graph.scannedAt.HasMinuteZone) :
    (graph.HasShortLines → ofText graph.document = .ok graph) ∧
      (¬ graph.HasShortLines → ∃ report, ofText graph.document =
        .error (formatFailure "Malformed dependency graph document"
          [⟨[], .malformed report, .null⟩])) :=
  ⟨ofText_of_hasShortLines hzone, ofText_of_not_hasShortLines⟩

/-- A graph with marks, control characters and other scripts in its texts, with an empty commit, and
taken half an hour behind UTC. -/
def exampleGraph : Graph where
  nodes := [⟨"Ty\"pe\\", .protocolType, "", 12, by decide, by decide⟩,
    ⟨"\t名前\n", .typeAlias, "a/\u007f/b", 100000000000000000000, by decide, by decide⟩]
  edges := [⟨"\t名前\n", "Missing", .methodParam, by decide, by decide⟩]
  scannedAt := ⟨987, 6, 5, 4, 3, 2, 1, some (-1800), by decide⟩
  commitSha := some ""

theorem ofText_document_exampleGraph :
    exampleGraph.scannedAt.HasMinuteZone ∧ exampleGraph.HasShortLines ∧
      ofText exampleGraph.document = .ok exampleGraph := by
  have hzone : exampleGraph.scannedAt.HasMinuteZone := by
    intro seconds hseconds
    obtain rfl : -1800 = seconds := Option.some.inj hseconds
    decide
  have hshort : exampleGraph.HasShortLines := by
    intro node hnode
    simp only [exampleGraph, List.mem_cons, List.not_mem_nil, or_false] at hnode
    rcases hnode with rfl | rfl <;> decide
  exact ⟨hzone, hshort, (ofText_document hzone).1 hshort⟩

/-- A graph with one node, on the first line whose number is too long for a reader. -/
def longLineGraph : Graph where
  nodes := [⟨"A", .classType, "f", leastLonger Json.wholeDigitLimit, by decide,
    leastLonger_pos _⟩]
  edges := []
  scannedAt := ⟨2026, 1, 1, 0, 0, 0, 0, some 0, by decide⟩
  commitSha := none

theorem hasMinuteZone_longLineGraph : longLineGraph.scannedAt.HasMinuteZone := by
  intro seconds hseconds
  obtain rfl : 0 = seconds := Option.some.inj hseconds
  decide

theorem not_hasShortLines_longLineGraph : ¬ longLineGraph.HasShortLines := by
  simp only [HasShortLines, longLineGraph, List.forall_mem_singleton, Nat.not_le]
  exact lt_digitCount_leastLonger (by decide)

/-- Not every graph is read back from its document. -/
theorem longLineGraph_not_read_back :
    longLineGraph.scannedAt.HasMinuteZone ∧ ofText longLineGraph.document ≠ .ok longLineGraph := by
  refine ⟨hasMinuteZone_longLineGraph, fun hread => ?_⟩
  obtain ⟨report, hreport⟩ := ofText_of_not_hasShortLines not_hasShortLines_longLineGraph
  rw [hreport] at hread
  cases hread

end Graph

end TypeAtlas
