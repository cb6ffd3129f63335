import TypeAtlas.Graph.Comparison
import TypeAtlas.Proofs.Graph.Assembly

/-!
# What a difference says

All four lists of a difference are `newcomers`, so everything about differences comes from which keys
newcomers have: those of one list that the other one lacks (`mem_map_newcomers`).

`IsPatch` says of the items that are added and removed that they lead exactly from one list to the
other, and gives their order.  The main statement, `Graph.diff_isPatch`, says this of nodes and of
edges for any two graphs, and how the differences of three graphs go together.  Nothing is assumed of
the graphs: keys may be repeated, and the ends of an edge need not be declared.

Of graphs that are assembled, the one with more nodes and edges has all keys of the other
(`Graph.keysWithin_assemble`), so nothing is removed on the way to it.
-/

namespace TypeAtlas

/-! ## Newcomers -/

section

variable [DecidableEq κ] (key : α → κ)

/-- Newcomers are those first occurrences whose key the other list lacks. -/
theorem newcomers_eq_filter (items others : List α) :
    newcomers key items others =
      (firstOccurrences key items).filter fun item => key item ∉ others.map key := by
  rw [newcomers, firsts_eq_firstOccurrences]
  apply List.filter_congr
  intro item _
  rw [List.contains_eq_mem, decide_not]

theorem mem_map_newcomers {items others : List α} {k : κ} :
    k ∈ (newcomers key items others).map key ↔ k ∈ items.map key ∧ k ∉ others.map key := by
  have hadmits : newcomers key items others =
      firsts key (items.filter fun item => !(others.map key).contains (key item)) :=
    filter_firsts key (fun k => !(others.map key).contains k) items
  rw [hadmits, mem_map_firsts, List.mem_map, List.mem_map]
  constructor
  · rintro ⟨item, hitem, rfl⟩
    obtain ⟨hmem, hnew⟩ := List.mem_filter.mp hitem
    exact ⟨⟨item, hmem, rfl⟩, by simpa using hnew⟩
  · rintro ⟨⟨item, hmem, rfl⟩, hnew⟩
    exact ⟨item, List.mem_filter.mpr ⟨hmem, by simpa using hnew⟩, rfl⟩

theorem nodup_map_newcomers (items others : List α) :
    ((newcomers key items others).map key).Nodup := by
  rw [newcomers]
  exact (nodup_map_firsts key items).sublist (List.filter_sublist.map key)

theorem newcomers_eq_nil_iff {items others : List α} :
    newcomers key items others = [] ↔ items.map key ⊆ others.map key := by
  rw [← List.map_eq_nil_iff (f := key), List.eq_nil_iff_forall_not_mem]
  simp only [mem_map_newcomers, not_and, Decidable.not_not]
  rfl

/-- A key that comes in by way of a list in between comes in before it or behind it, and does not go
out again. -/
theorem mem_map_newcomers_trans (first second third : List α) (k : κ) :
    k ∈ (newcomers key third first).map key ↔
      k ∈ (newcomers key second first).map key ∧ k ∉ (newcomers key second third).map key ∨
        k ∈ (newcomers key third second).map key ∧ k ∉ (newcomers key first second).map key := by
  simp only [mem_map_newcomers]
  by_cases hsecond : k ∈ second.map key
  · simp [hsecond, and_comm]
  · simp [hsecond]

/-! ## Patches -/

/-- Some added and some removed items lead exactly from one list to another. -/
structure IsPatch (before after added removed : List α) : Prop where
  /-- No key is added twice. -/
  nodup_added : (added.map key).Nodup
  /-- No key is removed twice. -/
  nodup_removed : (removed.map key).Nodup
  /-- What is added was not there. -/
  mem_added : ∀ k, k ∈ added.map key ↔ k ∈ after.map key ∧ k ∉ before.map key
  /-- What is removed is there no more. -/
  mem_removed : ∀ k, k ∈ removed.map key ↔ k ∈ before.map key ∧ k ∉ after.map key
  /-- Taking away what is removed and putting in what is added leads from one to the other. -/
  mem_after : ∀ k, k ∈ after.map key ↔
    k ∈ before.map key ∧ k ∉ removed.map key ∨ k ∈ added.map key
  /-- What is added comes in the order in which it first occurs. -/
  added_sublist : added.Sublist (firstOccurrences key after)
  /-- What is removed comes in the order in which it first occurred. -/
  removed_sublist : removed.Sublist (firstOccurrences key before)

theorem isPatch_newcomers (before after : List α) :
    IsPatch key before after (newcomers key after before) (newcomers key before after) where
  nodup_added := nodup_map_newcomers key after before
  nodup_removed := nodup_map_newcomers key before after
  mem_added _ := mem_map_newcomers key
  mem_removed _ := mem_map_newcomers key
  mem_after k := by
    rw [mem_map_newcomers, mem_map_newcomers]
    by_cases hbefore : k ∈ before.map key <;> simp [hbefore]
  added_sublist := by
    rw [newcomers_eq_filter]
    exact List.filter_sublist
  removed_sublist := by
    rw [newcomers_eq_filter]
    exact List.filter_sublist

/-- What is added and removed from a first list to a third one, in terms of the ways from the first
to the second and from there to the third. -/
structure Composes (added removed added₁ removed₁ added₂ removed₂ : List α) : Prop where
  mem_added : ∀ k, k ∈ added.map key ↔
    k ∈ added₁.map key ∧ k ∉ removed₂.map key ∨ k ∈ added₂.map key ∧ k ∉ removed₁.map key
  mem_removed : ∀ k, k ∈ removed.map key ↔
    k ∈ removed₁.map key ∧ k ∉ added₂.map key ∨ k ∈ removed₂.map key ∧ k ∉ added₁.map key

theorem composes_newcomers (first second third : List α) :
    Composes key (newcomers key third first) (newcomers key first third)
      (newcomers key second first) (newcomers key first second)
      (newcomers key third second) (newcomers key second third) where
  mem_added := mem_map_newcomers_trans key first second third
  -- What is removed on a way is what is added on the way back.
  mem_removed k := (mem_map_newcomers_trans key third second first k).trans or_comm

end

/-! ## Graphs -/

/-- The difference the other way round. -/
def GraphDiff.reverse (diff : GraphDiff) : GraphDiff where
  addedNodes := diff.removedNodes
  removedNodes := diff.addedNodes
  addedEdges := diff.removedEdges
  removedEdges := diff.addedEdges

namespace Graph

/-- Every node key and every edge key of a graph is one of another graph. -/
structure KeysWithin (graph other : Graph) : Prop where
  nodes : graph.nodes.map Node.key ⊆ other.nodes.map Node.key
  edges : graph.edges.map Edge.key ⊆ other.edges.map Edge.key

/-- Two graphs have the same node keys and the same edge keys. -/
structure SameKeys (graph other : Graph) : Prop where
  nodes : ∀ k, k ∈ graph.nodes.map Node.key ↔ k ∈ other.nodes.map Node.key
  edges : ∀ k, k ∈ graph.edges.map Edge.key ↔ k ∈ other.edges.map Edge.key

theorem sameKeys_iff {graph other : Graph} :
    SameKeys graph other ↔ KeysWithin graph other ∧ KeysWithin other graph := by
  constructor
  · rintro ⟨hnodes, hedges⟩
    exact ⟨⟨fun _ => (hnodes _).mp, fun _ => (hedges _).mp⟩,
      ⟨fun _ => (hnodes _).mpr, fun _ => (hedges _).mpr⟩⟩
  · rintro ⟨hwithin, hback⟩
    exact ⟨fun _ => ⟨@hwithin.nodes _, @hback.nodes _⟩, fun _ => ⟨@hwithin.edges _, @hback.edges _⟩⟩

theorem removed_eq_nil_iff {before after : Graph} :
    (before.diff after).removedNodes = [] ∧ (before.diff after).removedEdges = [] ↔
      KeysWithin before after := by
  rw [diff, newcomers_eq_nil_iff, newcomers_eq_nil_iff]
  exact ⟨fun hkeys => ⟨hkeys.1, hkeys.2⟩, fun hwithin => ⟨hwithin.nodes, hwithin.edges⟩⟩

theorem isEmpty_diff_iff {before after : Graph} :
    (before.diff after).isEmpty = true ↔ SameKeys before after := by
  -- What is added is what is removed on the way back.
  have hadded : (before.diff after).addedNodes = [] ∧ (before.diff after).addedEdges = [] ↔
      KeysWithin after before := removed_eq_nil_iff
  rw [sameKeys_iff, ← removed_eq_nil_iff, ← hadded]
  simp only [GraphDiff.isEmpty, Bool.and_eq_true, List.isEmpty_iff]
  constructor
  · rintro ⟨⟨⟨haddedNodes, hremovedNodes⟩, haddedEdges⟩, hremovedEdges⟩
    exact ⟨⟨hremovedNodes, hremovedEdges⟩, haddedNodes, haddedEdges⟩
  · rintro ⟨⟨hremovedNodes, hremovedEdges⟩, haddedNodes, haddedEdges⟩
    exact ⟨⟨⟨haddedNodes, hremovedNodes⟩, haddedEdges⟩, hremovedEdges⟩

/-- The more nodes and edges, the more keys: a node is never in the way of another key, and an edge
stays as long as its ends are declared. -/
theorem keysWithin_assemble {nodes more : List Node} {edges further : List Edge}
    (hnodes : nodes.map Node.key ⊆ more.map Node.key)
    (hedges : edges.map Edge.key ⊆ further.map Edge.key) (commitSha commitSha' : Option String)
    (scannedAt scannedAt' : Timestamp) :
    KeysWithin (assemble nodes edges commitSha scannedAt)
      (assemble more further commitSha' scannedAt') := by
  have hnames : ∀ name, name ∈ nodes.map Node.name → name ∈ more.map Node.name := by
    intro name hname
    obtain ⟨kind, hkind⟩ := (mem_names_iff nodes).mp hname
    exact (mem_names_iff more).mpr ⟨kind, hnodes hkind⟩
  constructor
  · intro key hkey
    exact (mem_map_firsts Node.key).mpr (hnodes ((mem_map_firsts Node.key).mp hkey))
  · intro key hkey
    rw [mem_edges_assemble] at hkey ⊢
    obtain ⟨hedge, hdiffer, hsource, htarget⟩ := hkey
    exact ⟨hedges hedge, hdiffer, hnames _ hsource, hnames _ htarget⟩

/-- **Differences are patches.**  For any graphs: the difference of two leads exactly from one to the
other, the difference the other way round has the same lists, it is empty if the keys are the same
and only then, and the differences to and from a third graph make up the whole. -/
theorem diff_isPatch (before between after : Graph) :
    (IsPatch Node.key before.nodes after.nodes (before.diff after).addedNodes
        (before.diff after).removedNodes ∧
      IsPatch Edge.key before.edges after.edges (before.diff after).addedEdges
        (before.diff after).removedEdges) ∧
    after.diff before = (before.diff after).reverse ∧
    ((before.diff after).isEmpty = true ↔ SameKeys before after) ∧
    Composes Node.key (before.diff after).addedNodes (before.diff after).removedNodes
      (before.diff between).addedNodes (before.diff between).removedNodes
      (between.diff after).addedNodes (between.diff after).removedNodes ∧
    Composes Edge.key (before.diff after).addedEdges (before.diff after).removedEdges
      (before.diff between).addedEdges (before.diff between).removedEdges
      (between.diff after).addedEdges (between.diff after).removedEdges := by
  refine ⟨⟨?_, ?_⟩, rfl, isEmpty_diff_iff, ?_, ?_⟩
  · exact isPatch_newcomers Node.key before.nodes after.nodes
  · exact isPatch_newcomers Edge.key before.edges after.edges
  · exact composes_newcomers Node.key before.nodes between.nodes after.nodes
  · exact composes_newcomers Edge.key before.edges between.edges after.edges

end Graph
end TypeAtlas
