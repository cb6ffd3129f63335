import TypeAtlas.Graph.Assembly
import TypeAtlas.Proofs.Entries

/-!
# What is in an assembled graph

`Graph.IsAssembly` gives the nodes, the edges and their order in terms of the nodes and edges that a
graph is assembled from, and says that assembling it once more changes nothing; and this is so of
every graph that is assembled (`Graph.isAssembly_assemble`).

Whether an edge stays depends on its key alone.  That is why it does not matter that edges are
dropped before repetitions are: the edges of the graph are those first occurrences that stay.
-/

namespace TypeAtlas

/-- Whether edges of a key join two different types out of some names. -/
def EdgeKey.joins (names : List String) (key : EdgeKey) : Bool :=
  key.1 ≠ key.2.1 && names.contains key.1 && names.contains key.2.1

namespace Graph

variable (nodes : List Node) (edges : List Edge) (commitSha : Option String) (scannedAt : Timestamp)

/-- A name occurs among nodes if it occurs in a key, whatever the kind is. -/
theorem mem_names_iff {name : String} :
    name ∈ nodes.map Node.name ↔ ∃ kind, (name, kind) ∈ nodes.map Node.key := by
  simp only [List.mem_map, Node.key, Prod.mk.injEq]
  constructor
  · rintro ⟨node, hnode, rfl⟩
    exact ⟨node.kind, node, hnode, rfl, rfl⟩
  · rintro ⟨kind, node, hnode, rfl, -⟩
    exact ⟨node, hnode, rfl⟩

theorem mem_names_firsts {name : String} :
    name ∈ (firsts Node.key nodes).map Node.name ↔ name ∈ nodes.map Node.name := by
  rw [mem_names_iff, mem_names_iff]
  exact exists_congr fun _ => mem_map_firsts Node.key

/-- Which names are declared does not depend on repeated nodes. -/
theorem joins_names_firsts (key : EdgeKey) :
    EdgeKey.joins ((firsts Node.key nodes).map Node.name) key = true ↔
      key.1 ≠ key.2.1 ∧ key.1 ∈ nodes.map Node.name ∧ key.2.1 ∈ nodes.map Node.name := by
  simp only [EdgeKey.joins, Bool.and_eq_true, decide_eq_true_eq, List.contains_iff_mem,
    mem_names_firsts, and_assoc]

/-- The edges of an assembled graph are those first occurrences of a key that join. -/
theorem edges_assemble :
    (assemble nodes edges commitSha scannedAt).edges =
      (firstOccurrences Edge.key edges).filter
        (Edge.joins ((firsts Node.key nodes).map Node.name)) := by
  rw [← firsts_eq_firstOccurrences]
  exact (filter_firsts Edge.key (EdgeKey.joins ((firsts Node.key nodes).map Node.name)) edges).symm

theorem mem_edges_assemble (key : EdgeKey) :
    key ∈ (assemble nodes edges commitSha scannedAt).edges.map Edge.key ↔
      key ∈ edges.map Edge.key ∧ key.1 ≠ key.2.1 ∧ key.1 ∈ nodes.map Node.name ∧
        key.2.1 ∈ nodes.map Node.name := by
  rw [← joins_names_firsts, assemble, mem_map_firsts, List.mem_map, List.mem_map]
  constructor
  · rintro ⟨edge, hedge, rfl⟩
    obtain ⟨hmem, hjoins⟩ := List.mem_filter.mp hedge
    exact ⟨⟨edge, hmem, rfl⟩, hjoins⟩
  · rintro ⟨⟨edge, hmem, rfl⟩, hjoins⟩
    exact ⟨edge, List.mem_filter.mpr ⟨hmem, hjoins⟩, rfl⟩

/-- An assembled graph has nothing that assembling would drop. -/
theorem assemble_assemble :
    assemble (assemble nodes edges commitSha scannedAt).nodes
        (assemble nodes edges commitSha scannedAt).edges commitSha scannedAt =
      assemble nodes edges commitSha scannedAt := by
  have hnodes : firsts Node.key (firsts Node.key nodes) = firsts Node.key nodes :=
    firsts_of_nodup Node.key (nodup_map_firsts Node.key nodes)
  have hjoins : ∀ edge ∈ (assemble nodes edges commitSha scannedAt).edges,
      edge.joins ((firsts Node.key nodes).map Node.name) = true := by
    intro edge hedge
    rw [edges_assemble] at hedge
    exact (List.mem_filter.mp hedge).2
  have hedges : firsts Edge.key (assemble nodes edges commitSha scannedAt).edges =
      (assemble nodes edges commitSha scannedAt).edges :=
    firsts_of_nodup Edge.key (nodup_map_firsts Edge.key _)
  rw [assemble]
  simp only [assemble] at hjoins hedges ⊢
  rw [hnodes, List.filter_eq_self.mpr hjoins, hedges]

/-- What is expected of a graph that is assembled from nodes and edges. -/
structure IsAssembly (graph : Graph) : Prop where
  /-- The nodes are the first occurrences of their keys. -/
  nodes_eq : graph.nodes = firstOccurrences Node.key nodes
  /-- There is an edge of a key if there was one whose ends are different and declared. -/
  mem_edges : ∀ key : EdgeKey, key ∈ graph.edges.map Edge.key ↔
    key ∈ edges.map Edge.key ∧ key.1 ≠ key.2.1 ∧ key.1 ∈ nodes.map Node.name ∧
      key.2.1 ∈ nodes.map Node.name
  /-- There is one edge of a key at most. -/
  nodup_edges : (graph.edges.map Edge.key).Nodup
  /-- Edges come in the order of first occurrences. -/
  edges_sublist : graph.edges.Sublist (firstOccurrences Edge.key edges)
  /-- Assembling what is there once more changes nothing. -/
  assemble_eq : assemble graph.nodes graph.edges commitSha scannedAt = graph

/-- **A graph that is assembled is what is expected of it.** -/
theorem isAssembly_assemble :
    IsAssembly nodes edges commitSha scannedAt (assemble nodes edges commitSha scannedAt) where
  nodes_eq := firsts_eq_firstOccurrences Node.key nodes
  mem_edges := mem_edges_assemble nodes edges commitSha scannedAt
  nodup_edges := nodup_map_firsts Edge.key _
  edges_sublist := by
    rw [edges_assemble]
    exact List.filter_sublist
  assemble_eq := assemble_assemble nodes edges commitSha scannedAt

end Graph
end TypeAtlas
