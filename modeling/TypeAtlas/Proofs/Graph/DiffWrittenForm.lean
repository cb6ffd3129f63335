import TypeAtlas.Proofs.Graph.WrittenForm

/-!
# Differences are read back from their documents

A difference goes back as a graph does: its value is plain, its numbers are short if the lines of its
nodes are, and every list comes back from the name under which it was written.
-/

namespace TypeAtlas

namespace GraphDiff

theorem ofJson_toJson (diff : GraphDiff) : ofJson diff.toJson = .ok diff := by
  obtain ⟨addedNodes, removedNodes, addedEdges, removedEdges⟩ := diff
  simp [ofJson, toJson, Field.object, Field.optional, Field.extras, Field.chosen?, Json.lookup?,
    Field.array_map Node.ofJson_toJson, Field.array_map Edge.ofJson_toJson]
  rfl

theorem isPlain_toJson (diff : GraphDiff) : Json.IsPlain Json.depthLimit diff.toJson := by
  have hnodes := Json.arePlain_map (Node.isPlain_toJson (Json.depthLimit - 3))
  have hedges := Json.arePlain_map (Edge.isPlain_toJson (Json.depthLimit - 3))
  exact ⟨hnodes diff.addedNodes, hnodes diff.removedNodes, hedges diff.addedEdges,
    hedges diff.removedEdges, trivial⟩

/-- No line number of an added or removed node has more digits than a reader takes. -/
def HasShortLines (diff : GraphDiff) : Prop :=
  ∀ node ∈ diff.addedNodes ++ diff.removedNodes, digitCount node.line ≤ Json.wholeDigitLimit

theorem isShort_toJson (diff : GraphDiff) : Json.IsShort diff.toJson ↔ diff.HasShortLines := by
  have hedges (edges : List Edge) : Json.AreShort (edges.map Edge.toJson) :=
    (Json.areShort_map edges).mpr fun edge _ => edge.isShort_toJson
  simp only [toJson, Json.IsShort, Json.FieldsAreShort, hedges, and_true, Json.areShort_map,
    Node.isShort_toJson, HasShortLines, List.forall_mem_append]

/-! ## Documents -/

theorem ofText_of_hasShortLines {diff : GraphDiff} (hshort : diff.HasShortLines) :
    ofText diff.document = .ok diff := by
  rw [ofText, ofDocument, document,
    readDocument_of_isShort _ diff.isPlain_toJson (diff.isShort_toJson.mpr hshort), ofJson_toJson]
  rfl

theorem ofText_of_not_hasShortLines {diff : GraphDiff} (hlong : ¬ diff.HasShortLines) :
    ∃ report, ofText diff.document = .error (formatFailure "Malformed graph diff document"
      [⟨[], .malformed report, .null⟩]) := by
  obtain ⟨report, hreport⟩ := readDocument_of_not_isShort ofJson diff.isPlain_toJson
    fun hshort => hlong (diff.isShort_toJson.mp hshort)
  refine ⟨report, ?_⟩
  rw [ofText, ofDocument, document, hreport]
  rfl

/-- **What comes of reading a saved difference.**  It is the difference itself, each list in its place
and as it was, if no line number is too long for a reader, and else a failure with one issue. -/
theorem ofText_writtenDiff (diff : GraphDiff) :
    (diff.HasShortLines → ofText diff.document = .ok diff) ∧
      (¬ diff.HasShortLines → ∃ report, ofText diff.document =
        .error (formatFailure "Malformed graph diff document" [⟨[], .malformed report, .null⟩])) :=
  ⟨ofText_of_hasShortLines, ofText_of_not_hasShortLines⟩

/-- A difference with a node that is repeated, one that is also removed, and an edge that is only
removed. -/
def exampleDiff : GraphDiff where
  addedNodes := [⟨"A\n", .enumType, "\\", 31, by decide, by decide⟩,
    ⟨"名前", .classType, "", 20, by decide, by decide⟩,
    ⟨"A\n", .enumType, "\\", 31, by decide, by decide⟩]
  removedNodes := [⟨"名前", .classType, "", 20, by decide, by decide⟩]
  removedEdges := [⟨"A\n", "\"", .fieldType, by decide, by decide⟩]

theorem ofText_writtenDiff_exampleDiff :
    exampleDiff.HasShortLines ∧ ofText exampleDiff.document = .ok exampleDiff := by
  have hshort : exampleDiff.HasShortLines := by
    simp only [HasShortLines, exampleDiff, List.forall_mem_append, List.forall_mem_cons]
    decide
  exact ⟨hshort, (ofText_writtenDiff _).1 hshort⟩

/-- The difference that adds the one node of `Graph.longLineGraph`. -/
def longLineDiff : GraphDiff where
  addedNodes := Graph.longLineGraph.nodes

/-- Not every difference is read back from its document. -/
theorem longLineDiff_not_read_back : ofText longLineDiff.document ≠ .ok longLineDiff := by
  have hlong : ¬ longLineDiff.HasShortLines := by
    simp only [HasShortLines, longLineDiff, List.append_nil]
    exact Graph.not_hasShortLines_longLineGraph
  intro hread
  obtain ⟨report, hreport⟩ := ofText_of_not_hasShortLines hlong
  rw [hreport] at hread
  cases hread

end GraphDiff

end TypeAtlas
