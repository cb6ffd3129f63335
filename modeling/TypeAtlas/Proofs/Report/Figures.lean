import Mathlib.Algebra.BigOperators.Group.List.Basic
import Mathlib.Algebra.Ring.Nat
import Mathlib.Data.Finset.Card
import Mathlib.Data.List.Induction
import Mathlib.Logic.Function.Basic
import TypeAtlas.Proofs.Graph.Consistency
import TypeAtlas.Proofs.Report.Lines
import TypeAtlas.Proofs.Report.Ranking

/-!
# The figures of a report add up

Two loops count.  `tally` counts items in a table that grows by what is new; what comes of it is
each item that occurs with the number of its occurrences (`tally_eq`).  `Graph.stats` counts the
edges of the declared names; what comes of it is known from the edges without going through them
(`Graph.stats_eq`).

The sum of such numbers is that of all items (`sum_countP`).  From this `Graph.figures_reconcile`
has how the figures in the text of the summary of a graph go together, and that for a graph that is
assembled each edge is counted once as leaving and once as arriving.
-/

namespace TypeAtlas

/-! ## Sums of counts -/

theorem sum_map_eq_count [DecidableEq κ] (keys : List κ) (key : κ) :
    (keys.map fun k => if key = k then 1 else 0).sum = keys.count key := by
  induction keys with
  | nil => rfl
  | cons first keys ih =>
      rw [List.map_cons, List.sum_cons, ih, List.count_cons, Nat.add_comm]
      simp only [beq_iff_eq, @eq_comm κ key]

/-- What is counted for each of some distinct keys is what has one of these keys. -/
theorem sum_countP [DecidableEq κ] (key : α → κ) {keys : List κ} (hnodup : keys.Nodup)
    (items : List α) : (keys.map fun k => items.countP fun item => key item = k).sum =
      items.countP fun item => key item ∈ keys := by
  induction items with
  | nil => simp
  | cons item items ih =>
      simp only [List.countP_cons, decide_eq_true_eq, List.sum_map_add, ih]
      rw [sum_map_eq_count, hnodup.count]

theorem sum_countP_of_forall_mem [DecidableEq κ] (key : α → κ) {keys : List κ}
    (hnodup : keys.Nodup) {items : List α} (hmem : ∀ item ∈ items, key item ∈ keys) :
    (keys.map fun k => items.countP fun item => key item = k).sum = items.length := by
  rw [sum_countP key hnodup, List.countP_eq_length]
  intro item hitem
  exact decide_eq_true (hmem item hitem)

/-! ## Tallies -/

section

variable [DecidableEq α]

theorem lookup_map_pair (keys : List α) (value : α → β) (key : α) :
    (keys.map fun k => (k, value k)).lookup key = if key ∈ keys then some (value key) else none := by
  induction keys with
  | nil => rfl
  | cons first keys ih =>
      by_cases hfirst : key = first
      · subst hfirst
        simp
      · have hother : (key == first) = false := beq_false_of_ne hfirst
        simp [List.lookup_cons, hother, hfirst, ih]

/-- A table of a function becomes one of the function that is changed at a key. -/
theorem putEntry_map_pair (keys : List α) (value : α → β) (key : α) (new : β) (hnodup : keys.Nodup) :
    putEntry (keys.map fun k => (k, value k)) key new =
      (if key ∈ keys then keys else keys ++ [key]).map fun k =>
        (k, Function.update value key new k) := by
  induction keys with
  | nil => simp [putEntry]
  | cons first keys ih =>
      obtain ⟨hfirst, hkeys⟩ := List.nodup_cons.mp hnodup
      rw [List.map_cons, putEntry]
      by_cases hsame : first = key
      · subst hsame
        have hrest : (keys.map fun k => (k, value k)) =
            keys.map fun k => (k, Function.update value first new k) := by
          apply List.map_congr_left
          intro k hk
          rw [Function.update_of_ne]
          rintro rfl
          exact hfirst hk
        simp [hrest]
      · have hother : (first == key) = false := beq_false_of_ne hsame
        have hother' : ¬ key = first := Ne.symm hsame
        simp only [hother, Bool.false_eq_true, if_false, ih hkeys, List.mem_cons, hother', false_or]
        split <;> simp [Function.update_of_ne hsame]

theorem tally_append_singleton (items : List α) (item : α) :
    tally (items ++ [item]) = countOne (tally items) item := by
  rw [tally, List.foldl_append]
  rfl

/-- **A tally has each item with the number of its occurrences.** -/
theorem tally_eq (items : List α) :
    tally items = (firsts id items).map fun item => (item, items.count item) := by
  induction items using List.reverseRecOn with
  | nil => rfl
  | append_singleton items item ih =>
      have hnumber : (if item ∈ firsts id items then some (items.count item) else none).getD 0 =
          items.count item := by
        split
        next => rfl
        next hnew => exact (List.count_eq_zero.mpr fun hitem => hnew (mem_firsts.mpr hitem)).symm
      have hcount : Function.update (fun other => items.count other) item (items.count item + 1) =
          fun other => (items ++ [item]).count other := by
        funext other
        rw [List.count_append, List.count_singleton]
        by_cases hother : other = item
        · subst hother
          simp
        · simp [Function.update_of_ne hother, Ne.symm hother]
      rw [tally_append_singleton, ih, countOne, lookup_map_pair, hnumber,
        putEntry_map_pair _ _ _ _ (nodup_firsts items), hcount, firsts_append_singleton, List.map_id, id]
      simp only [mem_firsts]

/-- The number of occurrences of each item that occurs, the greatest first. -/
structure IsBreakdown (items : List α) (counts : List (α × Nat)) : Prop where
  mem_iff : ∀ item count, (item, count) ∈ counts ↔ item ∈ items ∧ count = items.count item
  /-- No item has two numbers. -/
  nodup : (counts.map Prod.fst).Nodup
  decreasing : (counts.map Prod.snd).Pairwise fun count other => other ≤ count
  /-- The numbers add up to that of all items. -/
  sum_eq : (counts.map Prod.snd).sum = items.length

theorem isBreakdown_frequencies (items : List α) : IsBreakdown items (frequencies items) := by
  have hperm : (frequencies items).Perm ((firsts id items).map fun item => (item, items.count item)) :=
    tally_eq items ▸ perm_ranked Prod.snd (tally items)
  constructor
  · intro item count
    rw [hperm.mem_iff, List.mem_map]
    constructor
    · rintro ⟨found, hfound, hpair⟩
      obtain ⟨rfl, rfl⟩ := Prod.mk.inj hpair
      exact ⟨mem_firsts.mp hfound, rfl⟩
    · rintro ⟨hitem, rfl⟩
      exact ⟨item, mem_firsts.mpr hitem, rfl⟩
  · have hkeys := hperm.map Prod.fst
    rw [List.map_map] at hkeys
    exact hkeys.nodup_iff.mpr (by simpa [Function.comp_def] using nodup_firsts items)
  · exact List.pairwise_map.mpr (pairwise_ranked Prod.snd (tally items))
  · rw [(hperm.map Prod.snd).sum_eq, List.map_map]
    exact sum_countP_of_forall_mem id (nodup_firsts items) fun item hitem => mem_firsts.mpr hitem

end

/-! ## The figures of names -/

/-- The figures of a declared name, as far as some edges go. -/
def TypeStats.among (edges : List Edge) (node : Node) : TypeStats where
  name := node.name
  kind := node.kind
  file := node.file
  outgoing := edges.countP fun edge => edge.source = node.name
  incoming := edges.countP fun edge => edge.target = node.name

theorem TypeStats.count_among (edges : List Edge) (edge : Edge) (node : Node) :
    count edge (among edges node) = among (edges ++ [edge]) node := by
  by_cases hsource : edge.source = node.name <;> by_cases htarget : edge.target = node.name <;>
    simp [count, among, hsource, htarget]

/-- Counting edge after edge gives each name the number of its edges. -/
theorem foldl_count (nodes : List Node) (edges : List Edge) :
    edges.foldl (fun table edge => table.map (TypeStats.count edge)) (nodes.map TypeStats.ofNode) =
      nodes.map (TypeStats.among edges) := by
  induction edges using List.reverseRecOn with
  | nil => rfl
  | append_singleton edges edge ih =>
      rw [List.foldl_append, ih, List.foldl_cons, List.foldl_nil, List.map_map]
      apply List.map_congr_left
      intro node _
      exact TypeStats.count_among edges edge node

namespace Graph

variable {graph : Graph}

/-- The figures that the declared names should have, in the order of first declaration. -/
def figures (graph : Graph) : List TypeStats :=
  (firstOccurrences Node.name graph.nodes).map (TypeStats.among graph.edges)

theorem stats_eq (graph : Graph) : graph.stats = graph.figures := by
  rw [stats, foldl_count, figures, firsts_eq_firstOccurrences]

theorem map_name_stats (graph : Graph) :
    graph.stats.map TypeStats.name = (firsts Node.name graph.nodes).map Node.name := by
  rw [stats, foldl_count, List.map_map]
  rfl

theorem name_mem_of_mem_stats {stats : TypeStats} (hstats : stats ∈ graph.stats) :
    stats.name ∈ graph.nodes.map Node.name := by
  have hname : stats.name ∈ graph.stats.map TypeStats.name := List.mem_map_of_mem hstats
  rw [map_name_stats] at hname
  exact (mem_map_firsts Node.name).mp hname

/-- What is counted of a name are the edges that leave it and those that point at it. -/
theorem figures_of_mem_stats {stats : TypeStats} (hstats : stats ∈ graph.stats) :
    (stats.outgoing = graph.edges.countP fun edge => edge.source = stats.name) ∧
      stats.incoming = graph.edges.countP fun edge => edge.target = stats.name := by
  rw [stats_eq] at hstats
  obtain ⟨node, -, rfl⟩ := List.mem_map.mp hstats
  exact ⟨rfl, rfl⟩

theorem statsFor?_eq (graph : Graph) (name : String) : graph.statsFor? name =
    ((firsts Node.name graph.nodes).find? fun node => node.name = name).map
      (TypeStats.among graph.edges) := by
  rw [statsFor?, stats, foldl_count, List.find?_map]
  rfl

theorem totalOf_of_mem {name : String} (hname : name ∈ graph.nodes.map Node.name) :
    graph.totalOf name = (graph.edges.countP fun edge => edge.source = name) +
      graph.edges.countP fun edge => edge.target = name := by
  rw [totalOf, statsFor?_eq]
  cases hfound : (firsts Node.name graph.nodes).find? fun node => node.name = name with
  | none =>
      obtain ⟨node, hnode, hsame⟩ := List.mem_map.mp ((mem_map_firsts Node.name).mpr hname)
      exact absurd (decide_eq_true hsame) (List.find?_eq_none.mp hfound node hnode)
  | some node =>
      have hsame : node.name = name := by simpa using List.find?_some hfound
      subst hsame
      rfl

theorem totalOf_of_not_mem {name : String} (hname : name ∉ graph.nodes.map Node.name) :
    graph.totalOf name = 0 := by
  have hnone : ((firsts Node.name graph.nodes).find? fun node => node.name = name) = none := by
    rw [List.find?_eq_none]
    intro node hnode hsame
    exact hname ((mem_map_firsts Node.name).mp (of_decide_eq_true hsame ▸ List.mem_map_of_mem hnode))
  rw [totalOf, statsFor?_eq, hnone]
  rfl

/-- The number of edges that leave a declared name and of those that point at it; names that are not
declared have none. -/
def connections (graph : Graph) (name : String) : Nat :=
  if name ∈ graph.nodes.map Node.name then
    (graph.edges.countP fun edge => edge.source = name) +
      graph.edges.countP fun edge => edge.target = name
  else 0

theorem totalOf_eq_connections (graph : Graph) (name : String) :
    graph.totalOf name = graph.connections name := by
  rw [connections]
  split
  next hname => exact totalOf_of_mem hname
  next hname => exact totalOf_of_not_mem hname

/-- Where an end of an edge is always declared, the counts of that end make up the edges. -/
theorem sum_countP_names (finish : Edge → String)
    (hmem : ∀ edge ∈ graph.edges, finish edge ∈ graph.nodes.map Node.name) :
    ((firsts Node.name graph.nodes).map fun node =>
      graph.edges.countP fun edge => finish edge = node.name).sum = graph.edges.length := by
  have hsum := sum_countP_of_forall_mem finish (nodup_map_firsts Node.name graph.nodes)
    fun edge hedge => (mem_map_firsts Node.name).mpr (hmem edge hedge)
  rwa [List.map_map] at hsum

theorem IsConsistent.sum_outgoing (hconsistent : graph.IsConsistent) :
    (graph.stats.map TypeStats.outgoing).sum = graph.edges.length := by
  rw [stats, foldl_count, List.map_map]
  exact sum_countP_names Edge.source hconsistent.source_mem

theorem IsConsistent.sum_incoming (hconsistent : graph.IsConsistent) :
    (graph.stats.map TypeStats.incoming).sum = graph.edges.length := by
  rw [stats, foldl_count, List.map_map]
  exact sum_countP_names Edge.target hconsistent.target_mem

/-- A declared type is connected unless nothing leaves its name or points at it. -/
theorem isConnected_eq_false_iff {node : Node} (hnode : node ∈ graph.nodes) :
    graph.isConnected node = false ↔ graph.totalOf node.name = 0 := by
  rw [totalOf_of_mem (List.mem_map_of_mem hnode), Nat.add_eq_zero_iff, List.countP_eq_zero,
    List.countP_eq_zero, isConnected, List.any_eq_false]
  simp only [Bool.or_eq_true, decide_eq_true_eq, not_or]
  exact ⟨fun h => ⟨fun edge hedge => (h edge hedge).1, fun edge hedge => (h edge hedge).2⟩,
    fun h edge hedge => ⟨h.1 edge hedge, h.2 edge hedge⟩⟩

/-! ## The figures of a summary -/

/-- How a kind of types is called in a summary, by the number of its types. -/
def kindWord (kind : NodeKind) (count : Nat) : String :=
  match kind with
  | .classType => if count ≤ 1 then "class" else "classes"
  | .interfaceType => if count ≤ 1 then "interface" else "interfaces"
  | .protocolType => if count ≤ 1 then "protocol" else "protocols"
  | .enumType => if count ≤ 1 then "enum" else "enums"
  | .typeAlias => if count ≤ 1 then "type_alias" else "type_aliases"

theorem plural_name (kind : NodeKind) (count : Nat) :
    Report.plural kind.name count = kindWord kind count := by
  unfold Report.plural
  by_cases hone : count ≤ 1
  · rw [if_pos hone]
    cases kind <;> exact (if_pos hone).symm
  · rw [if_neg hone]
    cases kind <;> exact (if_neg hone).symm

/-- The figures of a graph agree with its nodes and edges, and so does the text of its summary. -/
structure Reconciles (graph : Graph) : Prop where
  /-- Each declared name has figures, in the order of first declaration. -/
  names_eq : graph.stats.map TypeStats.name = firstOccurrences id (graph.nodes.map Node.name)
  /-- No name has figures twice. -/
  nodup_names : (graph.stats.map TypeStats.name).Nodup
  outgoing_eq : ∀ stats ∈ graph.stats,
    stats.outgoing = graph.edges.countP fun edge => edge.source = stats.name
  incoming_eq : ∀ stats ∈ graph.stats,
    stats.incoming = graph.edges.countP fun edge => edge.target = stats.name
  total_eq : ∀ stats ∈ graph.stats, stats.total = graph.connections stats.name
  /-- The summary has three lines with figures: the totals, the nodes broken down by kind and the edges
  broken down by kind.  A fourth one at the end has the number of nodes whose name has no connections,
  and there is none if there are no such nodes. -/
  summary_shows : ∃ types dependencies sections,
    IsBreakdown (graph.nodes.map Node.kind) types ∧
    IsBreakdown (graph.edges.map Edge.kind) dependencies ∧
    (∀ line ∈ sections, ¬ Report.IsFigure line) ∧
    Report.Shows graph.summary
      (["## Dependency Graph Summary", "",
          "**" ++ toString graph.nodes.length ++ "** types across **" ++
            toString (graph.nodes.map Node.file).toFinset.card ++ "** files, **" ++
            toString graph.edges.length ++ "** dependencies", "",
          "**Types:** " ++ String.intercalate ", " (types.map fun (kind, count) =>
            toString count ++ " " ++ kindWord kind count),
          "**Edges:** " ++ String.intercalate ", " (dependencies.map fun (kind, count) =>
            toString count ++ " " ++ kind.name), ""] ++ sections ++
        let standalone := graph.nodes.countP fun node => graph.connections node.name = 0
        if standalone = 0 then []
        else ["*" ++ Report.typeCount standalone ++ " with no dependencies (standalone).*", ""])

theorem card_files (graph : Graph) : (graph.nodes.map Node.file).toFinset.card =
    (firsts id (graph.nodes.map Node.file)).length := by
  rw [← List.toFinset_card_of_nodup (nodup_firsts _)]
  congr 1
  ext file
  simp only [List.mem_toFinset, mem_firsts]

/-- Standalone are the nodes with a name that has no connections. -/
theorem standaloneCount_eq (graph : Graph) : graph.standaloneCount =
    graph.nodes.countP fun node => graph.connections node.name = 0 := by
  apply List.countP_congr
  intro node hnode
  simp [isConnected_eq_false_iff hnode, totalOf_eq_connections]

theorem standaloneLines_eq (graph : Graph) : graph.standaloneLines =
    if graph.standaloneCount = 0 then []
    else ["*" ++ Report.typeCount graph.standaloneCount ++ " with no dependencies (standalone).*",
      ""] := by
  rw [standaloneLines, standaloneLine, Report.counted_type]
  by_cases hzero : graph.standaloneCount = 0
  · rw [if_neg (by omega), if_pos hzero]
  · rw [if_pos (Nat.pos_of_ne_zero hzero), if_neg hzero]

theorem kindParts_eq (graph : Graph) : graph.kindParts =
    (frequencies (graph.nodes.map Node.kind)).map fun (kind, count) =>
      toString count ++ " " ++ kindWord kind count := by
  simp only [kindParts, plural_name]

theorem reconciles (graph : Graph) : Reconciles graph where
  names_eq := by
    rw [map_name_stats, map_firsts, firsts_eq_firstOccurrences]
  nodup_names := by
    rw [map_name_stats]
    exact nodup_map_firsts Node.name graph.nodes
  outgoing_eq _ hstats := (figures_of_mem_stats hstats).1
  incoming_eq _ hstats := (figures_of_mem_stats hstats).2
  total_eq stats hstats := by
    obtain ⟨houtgoing, hincoming⟩ := figures_of_mem_stats hstats
    rw [TypeStats.total, houtgoing, hincoming, connections, if_pos (name_mem_of_mem_stats hstats)]
  summary_shows := by
    refine ⟨frequencies (graph.nodes.map Node.kind), frequencies (graph.edges.map Edge.kind), _,
      isBreakdown_frequencies _, isBreakdown_frequencies _, graph.not_isFigure_sections, ?_⟩
    have hlines : Report.Shows graph.summary graph.summaryLines := Report.shows_layOut _
    rw [summaryLines_eq, overviewLines, totalsLine, kindParts_eq, standaloneLines_eq,
      standaloneCount_eq, ← card_files] at hlines
    exact hlines

/-- **The figures of a summary reconcile.**  For every graph they agree with its nodes and edges; for
a graph that is assembled the edges that leave names, and those that point at names, are all edges. -/
theorem figures_reconcile (graph : Graph) (nodes : List Node) (edges : List Edge)
    (commitSha : Option String) (scannedAt : Timestamp) :
    Reconciles graph ∧
      ((assemble nodes edges commitSha scannedAt).stats.map TypeStats.outgoing).sum =
        (assemble nodes edges commitSha scannedAt).edges.length ∧
      ((assemble nodes edges commitSha scannedAt).stats.map TypeStats.incoming).sum =
        (assemble nodes edges commitSha scannedAt).edges.length := by
  have hconsistent := isConsistent_assemble nodes edges commitSha scannedAt
  exact ⟨reconciles graph, hconsistent.sum_outgoing, hconsistent.sum_incoming⟩

end Graph

end TypeAtlas
