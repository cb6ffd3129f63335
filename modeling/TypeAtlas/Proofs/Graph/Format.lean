import TypeAtlas.Proofs.Graph.WrittenForm
import TypeAtlas.Proofs.Validation.Acceptance

/-!
# The format of saved graphs and differences

`Json.IsGraph` says of a value which graph it is, if it is one: the values of its fields, the items of
its arrays one for one, and that there is no key beyond the names of the fields.  It does so without
an order of checks and without the issues of those that fail; `Json.IsDiff` does the same for a
difference.  `Graph.ofDocument_reads_format` says that a document is read if its value is a graph, and
as that graph; any other document is refused.

Numbers and times have many spellings.  What these are is said by `Field.integer` and
`Timestamp.ofJson` alone, so the format takes them over.
-/

namespace TypeAtlas

/-! ## Kinds -/

theorem NodeKind.ofName?_eq_some_iff {name : String} {kind : NodeKind} :
    ofName? name = some kind ↔ name = kind.name := by
  constructor
  · intro hkind
    have hname := List.find?_some (p := fun other : NodeKind => other.name == name) hkind
    exact (beq_iff_eq.mp hname).symm
  · rintro rfl
    exact ofName?_name kind

theorem EdgeKind.ofName?_eq_some_iff {name : String} {kind : EdgeKind} :
    ofName? name = some kind ↔ name = kind.name := by
  constructor
  · intro hkind
    have hname := List.find?_some (p := fun other : EdgeKind => other.name == name) hkind
    exact (beq_iff_eq.mp hname).symm
  · rintro rfl
    exact ofName?_name kind

namespace Field

variable {fields : List (String × Json)} {names : List String} {input : Json}

theorem nodeKind_eq_ok_iff {kind : NodeKind} :
    nodeKind input = .ok kind ↔ input = .str kind.name := by
  simp only [nodeKind, member, named_eq_ok_iff, NodeKind.ofName?_eq_some_iff, exists_eq_right]

theorem edgeKind_eq_ok_iff {kind : EdgeKind} :
    edgeKind input = .ok kind ↔ input = .str kind.name := by
  simp only [edgeKind, member, named_eq_ok_iff, EdgeKind.ofName?_eq_some_iff, exists_eq_right]

theorem timestamp_eq_ok_iff {time : Timestamp} :
    timestamp input = .ok time ↔ Timestamp.ofJson input = .ok time := by
  rw [timestamp]
  cases Timestamp.ofJson input <;> simp [Checked.fail]

/-! ## The format -/

/-- The object lists the values under a field: there are none and it lacks the field, or the field is
an array of one item for each, in this order. -/
def Lists (fields : List (String × Json)) (names : List String) (isFor : Json → α → Prop)
    (values : List α) : Prop :=
  (Lacks fields names ∧ values = []) ∨
    ∃ items, Has fields names (.arr items) ∧ List.Forall₂ isFor items values

/-- The object has a text under a field; that there is none is a null or a field left out. -/
def HoldsText (fields : List (String × Json)) (names : List String) : Option String → Prop
  | none => Lacks fields names ∨ Has fields names .null
  | some text => Has fields names (.str text)

end Field

/-- The object has the fields of the node, and no other key. -/
structure Node.IsGivenBy (node : Node) (fields : List (String × Json)) : Prop where
  keys : ∀ field ∈ fields, field.1 ∈ ["name", "kind", "file", "line"]
  name : Field.Has fields ["name"] (.str node.name)
  kind : Field.Has fields ["kind"] (.str node.kind.name)
  file : Field.Has fields ["file"] (.str node.file)
  line : ∃ input, Field.Has fields ["line"] input ∧ Field.integer input = .ok (node.line : Int)

/-- The value is an object for the node.  That the name is not empty and the line not below one is
known of the node. -/
def Json.IsNode (value : Json) (node : Node) : Prop :=
  ∃ fields, value = .obj fields ∧ node.IsGivenBy fields

/-- The object has the fields of the edge, and no other key. -/
structure Edge.IsGivenBy (edge : Edge) (fields : List (String × Json)) : Prop where
  keys : ∀ field ∈ fields, field.1 ∈ ["from", "source", "to", "target", "kind"]
  source : Field.Has fields ["from", "source"] (.str edge.source)
  target : Field.Has fields ["to", "target"] (.str edge.target)
  kind : Field.Has fields ["kind"] (.str edge.kind.name)

/-- The value is an object for the edge. -/
def Json.IsEdge (value : Json) (edge : Edge) : Prop :=
  ∃ fields, value = .obj fields ∧ edge.IsGivenBy fields

/-- The object has the fields of the graph, and no other key.  Nodes, edges and the commit may be
left out if there are none; the time may not. -/
structure Graph.IsGivenBy (graph : Graph) (fields : List (String × Json)) : Prop where
  keys : ∀ field ∈ fields,
    field.1 ∈ ["nodes", "edges", "scannedAt", "scanned_at", "commitSha", "commit_sha"]
  nodes : Field.Lists fields ["nodes"] Json.IsNode graph.nodes
  edges : Field.Lists fields ["edges"] Json.IsEdge graph.edges
  scannedAt : ∃ input, Field.Has fields ["scannedAt", "scanned_at"] input ∧
    Timestamp.ofJson input = .ok graph.scannedAt
  commitSha : Field.HoldsText fields ["commitSha", "commit_sha"] graph.commitSha

/-- The value is an object for the graph. -/
def Json.IsGraph (value : Json) (graph : Graph) : Prop :=
  ∃ fields, value = .obj fields ∧ graph.IsGivenBy fields

/-- The object has the fields of the difference, and no other key.  Any of the lists may be left out
if it is empty. -/
structure GraphDiff.IsGivenBy (diff : GraphDiff) (fields : List (String × Json)) : Prop where
  keys : ∀ field ∈ fields, field.1 ∈ ["addedNodes", "added_nodes", "removedNodes", "removed_nodes",
    "addedEdges", "added_edges", "removedEdges", "removed_edges"]
  addedNodes : Field.Lists fields ["addedNodes", "added_nodes"] Json.IsNode diff.addedNodes
  removedNodes : Field.Lists fields ["removedNodes", "removed_nodes"] Json.IsNode diff.removedNodes
  addedEdges : Field.Lists fields ["addedEdges", "added_edges"] Json.IsEdge diff.addedEdges
  removedEdges : Field.Lists fields ["removedEdges", "removed_edges"] Json.IsEdge diff.removedEdges

/-- The value is an object for the difference. -/
def Json.IsDiff (value : Json) (diff : GraphDiff) : Prop :=
  ∃ fields, value = .obj fields ∧ diff.IsGivenBy fields

/-! ## Checks and the format -/

namespace Field

variable {fields : List (String × Json)} {names : List String}

theorem optional_array_eq_ok_iff {check : Json → Checked α} {isFor : Json → α → Prop}
    {problem : Problem} {values : List α} (honce : AtMostOnce fields names)
    (hcheck : ∀ item value, check item = .ok value ↔ isFor item value) :
    optional fields names [] (array problem check) = .ok values ↔ Lists fields names isFor values := by
  rw [optional_eq_ok_iff honce, Lists]
  simp only [array_eq_ok_iff, hcheck]
  constructor
  · rintro (hlacks | ⟨_, hhas, items, rfl, hitems⟩)
    · exact .inl hlacks
    · exact .inr ⟨items, hhas, hitems⟩
  · rintro (hlacks | ⟨items, hhas, hitems⟩)
    · exact .inl hlacks
    · exact .inr ⟨_, hhas, items, rfl, hitems⟩

theorem Lists.atMostOnce {isFor : Json → α → Prop} {values : List α}
    (hlists : Lists fields names isFor values) : AtMostOnce fields names := by
  rcases hlists with ⟨hlacks, -⟩ | ⟨items, hhas, -⟩
  · exact .inl hlacks
  · exact .inr ⟨_, hhas⟩

theorem optional_textOrNull_eq_ok_iff {value : Option String} (honce : AtMostOnce fields names) :
    optional fields names none textOrNull = .ok value ↔ HoldsText fields names value := by
  rw [optional_eq_ok_iff honce]
  simp only [textOrNull_eq_ok_iff]
  cases value with
  | none =>
      simp only [HoldsText, and_true, true_and, reduceCtorEq, false_and, exists_false, or_false,
        exists_eq_right]
  | some text =>
      simp only [HoldsText, reduceCtorEq, and_false, false_and, false_or, Option.some.injEq,
        exists_eq_left', exists_eq_right]

theorem HoldsText.atMostOnce {value : Option String} (hholds : HoldsText fields names value) :
    AtMostOnce fields names := by
  cases value with
  | none => exact hholds.imp id fun hhas => ⟨_, hhas⟩
  | some text => exact Has.atMostOnce hholds

end Field

theorem Node.ofJson_eq_ok_iff {input : Json} {node : Node} :
    ofJson input = .ok node ↔ input.IsNode node := by
  refine Field.object_fields_eq_ok_iff (by simp [Field.Apart]) (fun _ hgiven => hgiven.keys) ?once
    fun fields hkeys honce => ?_
  case once =>
    rintro fields ⟨-, hname, hkind, hfile, _, hline, -⟩
    simp only [List.forall_mem_cons]
    exact ⟨hname.atMostOnce, hkind.atMostOnce, hfile.atMostOnce, hline.atMostOnce, nofun⟩
  simp only [List.forall_mem_cons] at honce
  obtain ⟨hname, hkind, hfile, hline, -⟩ := honce
  simp only [Prod.exists, Checked.both_eq_ok_iff, Field.required_eq_ok_iff hname,
    Field.required_eq_ok_iff hkind, Field.required_eq_ok_iff hfile,
    Field.required_eq_ok_iff hline, Field.nonempty_eq_ok_iff, Field.nodeKind_eq_ok_iff,
    Field.text_eq_ok_iff, Field.positive_eq_ok_iff, exists_eq_right]
  constructor
  · rintro ⟨name, kind, file, line, ⟨⟨⟨hname, hkind⟩, hfile⟩, hline⟩, rfl⟩
    exact ⟨hkeys, hname, hkind, hfile, hline⟩
  · rintro ⟨-, hname, hkind, hfile, hline⟩
    exact ⟨⟨node.name, node.name_ne⟩, node.kind, node.file, ⟨node.line, node.line_pos⟩,
      ⟨⟨⟨hname, hkind⟩, hfile⟩, hline⟩, rfl⟩

theorem Edge.ofJson_eq_ok_iff {input : Json} {edge : Edge} :
    ofJson input = .ok edge ↔ input.IsEdge edge := by
  refine Field.object_fields_eq_ok_iff (by simp [Field.Apart]) (fun _ hgiven => hgiven.keys) ?once
    fun fields hkeys honce => ?_
  case once =>
    rintro fields ⟨-, hsource, htarget, hkind⟩
    simp only [List.forall_mem_cons]
    exact ⟨hsource.atMostOnce, htarget.atMostOnce, hkind.atMostOnce, nofun⟩
  simp only [List.forall_mem_cons] at honce
  obtain ⟨hsource, htarget, hkind, -⟩ := honce
  simp only [Prod.exists, Checked.both_eq_ok_iff, Field.required_eq_ok_iff hsource,
    Field.required_eq_ok_iff htarget, Field.required_eq_ok_iff hkind, Field.nonempty_eq_ok_iff,
    Field.edgeKind_eq_ok_iff, exists_eq_right]
  constructor
  · rintro ⟨source, target, kind, ⟨⟨hsource, htarget⟩, hkind⟩, rfl⟩
    exact ⟨hkeys, hsource, htarget, hkind⟩
  · rintro ⟨-, hsource, htarget, hkind⟩
    exact ⟨⟨edge.source, edge.source_ne⟩, ⟨edge.target, edge.target_ne⟩, edge.kind,
      ⟨⟨hsource, htarget⟩, hkind⟩, rfl⟩

theorem Graph.ofJson_eq_ok_iff {input : Json} {graph : Graph} :
    ofJson input = .ok graph ↔ input.IsGraph graph := by
  refine Field.object_fields_eq_ok_iff (by simp [Field.Apart]) (fun _ hgiven => hgiven.keys) ?once
    fun fields hkeys honce => ?_
  case once =>
    rintro fields ⟨-, hnodes, hedges, ⟨_, hstamp, -⟩, hsha⟩
    simp only [List.forall_mem_cons]
    exact ⟨hnodes.atMostOnce, hedges.atMostOnce, hstamp.atMostOnce, hsha.atMostOnce, nofun⟩
  simp only [List.forall_mem_cons] at honce
  obtain ⟨hnodes, hedges, hstamp, hsha, -⟩ := honce
  simp only [Prod.exists, Checked.both_eq_ok_iff,
    Field.optional_array_eq_ok_iff hnodes fun _ _ => Node.ofJson_eq_ok_iff,
    Field.optional_array_eq_ok_iff hedges fun _ _ => Edge.ofJson_eq_ok_iff,
    Field.required_eq_ok_iff hstamp, Field.timestamp_eq_ok_iff,
    Field.optional_textOrNull_eq_ok_iff hsha]
  constructor
  · rintro ⟨nodes, edges, scannedAt, sha, ⟨⟨⟨hnodes, hedges⟩, hstamp⟩, hsha⟩, rfl⟩
    exact ⟨hkeys, hnodes, hedges, hstamp, hsha⟩
  · rintro ⟨-, hnodes, hedges, hstamp, hsha⟩
    exact ⟨graph.nodes, graph.edges, graph.scannedAt, graph.commitSha,
      ⟨⟨⟨hnodes, hedges⟩, hstamp⟩, hsha⟩, rfl⟩

theorem GraphDiff.ofJson_eq_ok_iff {input : Json} {diff : GraphDiff} :
    ofJson input = .ok diff ↔ input.IsDiff diff := by
  refine Field.object_fields_eq_ok_iff (by simp [Field.Apart]) (fun _ hgiven => hgiven.keys) ?once
    fun fields hkeys honce => ?_
  case once =>
    rintro fields ⟨-, hadded, hremoved, hgained, hlost⟩
    simp only [List.forall_mem_cons]
    exact ⟨hadded.atMostOnce, hremoved.atMostOnce, hgained.atMostOnce, hlost.atMostOnce, nofun⟩
  simp only [List.forall_mem_cons] at honce
  obtain ⟨hadded, hremoved, hgained, hlost, -⟩ := honce
  simp only [Prod.exists, Checked.both_eq_ok_iff,
    Field.optional_array_eq_ok_iff hadded fun _ _ => Node.ofJson_eq_ok_iff,
    Field.optional_array_eq_ok_iff hremoved fun _ _ => Node.ofJson_eq_ok_iff,
    Field.optional_array_eq_ok_iff hgained fun _ _ => Edge.ofJson_eq_ok_iff,
    Field.optional_array_eq_ok_iff hlost fun _ _ => Edge.ofJson_eq_ok_iff]
  constructor
  · rintro ⟨_, _, _, _, ⟨⟨⟨hadded, hremoved⟩, hgained⟩, hlost⟩, rfl⟩
    exact ⟨hkeys, hadded, hremoved, hgained, hlost⟩
  · rintro ⟨-, hadded, hremoved, hgained, hlost⟩
    exact ⟨diff.addedNodes, diff.removedNodes, diff.addedEdges, diff.removedEdges,
      ⟨⟨⟨hadded, hremoved⟩, hgained⟩, hlost⟩, rfl⟩

/-! ## Documents -/

/-- What a document is read as is what its value is, for a check that accepts just these values. -/
theorem readDocument_eq_ok_iff {check : Json → Checked α} {isFor : Json → α → Prop}
    {toFailure : List Issue → Failure} {pieces : List Utf8.Piece} {item : α}
    (hcheck : ∀ value, check value = .ok item ↔ isFor value item) :
    (readDocument check pieces).mapError toFailure = .ok item ↔
      ∃ value, Json.read .strict pieces = .ok value ∧ isFor value item := by
  rw [readDocument]
  cases Json.read .strict pieces with
  | error fault => simp [Checked.fail, Except.mapError]
  | ok value =>
      simp only [Except.ok.injEq, exists_eq_left', ← hcheck]
      cases check value <;> simp [Except.mapError]

theorem GraphDiff.ofDocument_eq_ok_iff {pieces : List Utf8.Piece} {diff : GraphDiff} :
    ofDocument pieces = .ok diff ↔
      ∃ value, Json.read .strict pieces = .ok value ∧ value.IsDiff diff :=
  readDocument_eq_ok_iff fun _ => ofJson_eq_ok_iff

namespace Graph

theorem ofDocument_eq_ok_iff {pieces : List Utf8.Piece} {graph : Graph} :
    ofDocument pieces = .ok graph ↔
      ∃ value, Json.read .strict pieces = .ok value ∧ value.IsGraph graph :=
  readDocument_eq_ok_iff fun _ => ofJson_eq_ok_iff

theorem ofDocument_ok_or_error (pieces : List Utf8.Piece) :
    (∃ graph, ofDocument pieces = .ok graph) ∨ ∃ issues, ofDocument pieces =
      .error (formatFailure "Malformed dependency graph document" issues) := by
  rw [ofDocument]
  cases readDocument ofJson pieces with
  | error issues => exact .inr ⟨issues, rfl⟩
  | ok graph => exact .inl ⟨graph, rfl⟩

/-- Of the values that are plain, those whose numbers are short are read when they are written. -/
theorem ofText_indented_eq_ok_iff {value : Json} {graph : Graph}
    (hplain : Json.IsPlain Json.depthLimit value) :
    ofText value.indented = .ok graph ↔ Json.IsShort value ∧ value.IsGraph graph := by
  rw [ofText, ofDocument_eq_ok_iff]
  by_cases hshort : Json.IsShort value
  · rw [(Json.read_indented hplain).1 hshort]
    simp only [Except.ok.injEq, exists_eq_left', hshort, true_and]
  · obtain ⟨fault, hfault⟩ := (Json.read_indented hplain).2 hshort
    rw [hfault]
    simp only [reduceCtorEq, false_and, exists_false, hshort]

/-- **Exactly the format is read.**  A document is read as a graph if it is JSON that the reader takes
and its value is that graph, and every other document is refused.  The reader takes what is written of
a value that is plain, unless it has a number that is too long. -/
theorem ofDocument_reads_format :
    (∀ pieces,
      (∀ graph, ofDocument pieces = .ok graph ↔
        ∃ value, Json.read .strict pieces = .ok value ∧ value.IsGraph graph) ∧
      ((∃ graph, ofDocument pieces = .ok graph) ∨ ∃ issues, ofDocument pieces =
        .error (formatFailure "Malformed dependency graph document" issues))) ∧
    ∀ value, Json.IsPlain Json.depthLimit value → ∀ graph,
      ofText value.indented = .ok graph ↔ Json.IsShort value ∧ value.IsGraph graph :=
  ⟨fun pieces => ⟨fun _ => ofDocument_eq_ok_iff, ofDocument_ok_or_error pieces⟩,
    fun _ hplain _ => ofText_indented_eq_ok_iff hplain⟩

/-- A value with second names, a repeated key, no commit, and numbers in other spellings. -/
def generousValue : Json :=
  .obj [("scanned_at", .null),
    ("edges", .arr [.obj [("kind", .str "import"), ("source", .str "New"), ("to", .str "Old")]]),
    ("nodes", .arr [.obj [("line", .str " +1_0 "), ("name", .str "New"), ("file", .str ""),
      ("kind", .str "enum")]]),
    ("scanned_at", .ofNat 60)]

/-- What it is read as. -/
def generousGraph : Graph where
  nodes := [⟨"New", .enumType, "", 10, by decide, by decide⟩]
  edges := [⟨"New", "Old", .importing, by decide, by decide⟩]
  scannedAt := ⟨1970, 1, 1, 0, 1, 0, 0, some 0, by decide⟩
  commitSha := none

theorem isGraph_generousValue : generousValue.IsGraph generousGraph :=
  ofJson_eq_ok_iff.mp rfl

theorem ofDocument_reads_format_generousValue :
    Json.IsPlain Json.depthLimit generousValue ∧ Json.IsShort generousValue ∧
      ofText generousValue.indented = .ok generousGraph := by
  have hplain : Json.IsPlain Json.depthLimit generousValue := by
    simp [generousValue, Json.IsPlain, Json.FieldsArePlain, Json.ArePlain, Json.depthLimit, Json.ofNat]
  have hshort : Json.IsShort generousValue := by
    simp [generousValue, Json.IsShort, Json.FieldsAreShort, Json.AreShort, Json.ofNat]
    decide
  exact ⟨hplain, hshort,
    (ofDocument_reads_format.2 _ hplain _).mpr ⟨hshort, isGraph_generousValue⟩⟩

/-- Not every document in the format is read: the reader takes no number that is too long. -/
theorem longLineGraph_format_refused :
    longLineGraph.toJson.IsGraph longLineGraph ∧
      ∀ graph, ofText longLineGraph.toJson.indented ≠ .ok graph := by
  refine ⟨ofJson_eq_ok_iff.mp (ofJson_toJson hasMinuteZone_longLineGraph), fun graph hread => ?_⟩
  rw [ofText_indented_eq_ok_iff longLineGraph.isPlain_toJson, isShort_toJson] at hread
  exact not_hasShortLines_longLineGraph hread.1

end Graph

end TypeAtlas
