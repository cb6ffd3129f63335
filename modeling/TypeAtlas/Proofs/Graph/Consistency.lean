import TypeAtlas.Proofs.Graph.Assembly
import TypeAtlas.Proofs.Graph.WrittenForm

/-!
# Graphs of scans

A graph that comes from a scan has no key twice, and both ends of each edge are declared
(`Graph.IsScanned.isConsistent`).  It keeps this when it is saved and read back, whatever its time is:
nodes and edges are read as they were written, also where the time is not.
-/

namespace TypeAtlas.Graph

/-- No key occurs twice, and what an edge joins is declared. -/
structure IsConsistent (graph : Graph) : Prop where
  nodup_nodes : (graph.nodes.map Node.key).Nodup
  nodup_edges : (graph.edges.map Edge.key).Nodup
  source_mem : ∀ edge ∈ graph.edges, edge.source ∈ graph.nodes.map Node.name
  target_mem : ∀ edge ∈ graph.edges, edge.target ∈ graph.nodes.map Node.name

theorem isConsistent_assemble (nodes : List Node) (edges : List Edge) (commitSha : Option String)
    (scannedAt : Timestamp) : IsConsistent (assemble nodes edges commitSha scannedAt) := by
  have hends : ∀ edge ∈ (assemble nodes edges commitSha scannedAt).edges,
      edge.source ∈ nodes.map Node.name ∧ edge.target ∈ nodes.map Node.name := by
    intro edge hedge
    exact ((mem_edges_assemble nodes edges commitSha scannedAt edge.key).mp
      (List.mem_map_of_mem hedge)).2.2
  constructor
  · exact nodup_map_firsts Node.key nodes
  · exact nodup_map_firsts Edge.key _
  · intro edge hedge
    exact (mem_names_firsts nodes).mpr (hends edge hedge).1
  · intro edge hedge
    exact (mem_names_firsts nodes).mpr (hends edge hedge).2

/-! ## Saved graphs -/

/-- Nodes and edges are read as they were written, if the time is read at all. -/
theorem eq_of_ofJson_toJson {graph other : Graph} (hread : ofJson graph.toJson = .ok other) :
    other.nodes = graph.nodes ∧ other.edges = graph.edges := by
  obtain ⟨nodes, edges, scannedAt, commitSha⟩ := graph
  cases commitSha <;>
    simp [ofJson, toJson, Field.object, Field.required, Field.optional, Field.extras, Field.chosen?,
      Json.lookup?, Field.array_map Node.ofJson_toJson, Field.array_map Edge.ofJson_toJson] at hread
  all_goals
    cases hstamp : Field.timestamp (.str scannedAt.render) with
    | error issues =>
        rw [hstamp] at hread
        cases hread
    | ok time =>
        rw [hstamp] at hread
        cases hread
        exact ⟨rfl, rfl⟩

theorem eq_of_ofText_document {graph other : Graph} (hread : ofText graph.document = .ok other) :
    other.nodes = graph.nodes ∧ other.edges = graph.edges := by
  by_cases hshort : graph.HasShortLines
  · rw [ofText, ofDocument, document,
      readDocument_of_isShort _ graph.isPlain_toJson (graph.isShort_toJson.mpr hshort)] at hread
    cases hvalue : ofJson graph.toJson with
    | error issues =>
        rw [hvalue] at hread
        cases hread
    | ok found =>
        rw [hvalue] at hread
        obtain rfl : found = other := Except.ok.inj hread
        exact eq_of_ofJson_toJson hvalue
  · obtain ⟨report, hreport⟩ := ofText_of_not_hasShortLines hshort
    rw [hreport] at hread
    cases hread

/-- A graph that is assembled, or read back from the document of such a graph. -/
inductive IsScanned : Graph → Prop where
  | assembled (nodes : List Node) (edges : List Edge) (commitSha : Option String)
      (scannedAt : Timestamp) : IsScanned (assemble nodes edges commitSha scannedAt)
  | readBack {saved graph : Graph} (hsaved : IsScanned saved)
      (hread : ofText saved.document = .ok graph) : IsScanned graph

theorem IsScanned.isConsistent {graph : Graph} (hscanned : graph.IsScanned) :
    graph.IsConsistent := by
  induction hscanned with
  | assembled nodes edges commitSha scannedAt =>
      exact isConsistent_assemble nodes edges commitSha scannedAt
  | @readBack saved graph _ hread ih =>
      obtain ⟨hnodes, hedges⟩ := eq_of_ofText_document hread
      obtain ⟨hnodupNodes, hnodupEdges, hsource, htarget⟩ := ih
      constructor
      · rwa [hnodes]
      · rwa [hedges]
      · rwa [hedges, hnodes]
      · rwa [hedges, hnodes]

end TypeAtlas.Graph
