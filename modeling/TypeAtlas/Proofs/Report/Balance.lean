import Mathlib.Algebra.Ring.Int.Defs
import TypeAtlas.Proofs.Graph.Comparison
import TypeAtlas.Proofs.Report.Sections

/-!
# The report of a difference balances

The report of a difference has its figures from three places: the totals from the lengths of the
graphs' lists, the changes from the lists of the difference, and the connections of names from the
figures of both graphs.  That they agree (`Graph.report_balances`) needs that the graphs come from
scans.  Where no key occurs twice, what two lists have in common takes the same room in both
(`change_length_newcomers`), and where the ends of all edges are declared, every edge is counted at
two names (`Graph.IsConsistent.sum_totalOf`).
-/

namespace TypeAtlas

open Report

/-! ## Lengths of lists and of their difference -/

section

variable [DecidableEq κ] (key : α → κ) {items : List α}

/-- The items that are no newcomers have a key in common with the others. -/
theorem length_newcomers (hitems : (items.map key).Nodup) (others : List α) :
    (newcomers key items others).length + ((items.map key).filter (· ∈ others.map key)).length =
      items.length := by
  have hkeys : ((items.map key).filter (· ∈ others.map key)).length =
      items.countP fun item => key item ∈ others.map key := by
    rw [← List.countP_eq_length_filter, List.countP_map]
    rfl
  rw [newcomers, firsts_of_nodup key hitems, hkeys, ← List.countP_eq_length_filter,
    List.length_eq_countP_add_countP (fun item => decide (key item ∈ others.map key)), Nat.add_comm]
  congr 1
  apply List.countP_congr
  intro item _
  simp

theorem length_common {keys more : List κ} (hkeys : keys.Nodup) (hmore : more.Nodup) :
    (keys.filter (· ∈ more)).length = (more.filter (· ∈ keys)).length := by
  apply List.Perm.length_eq
  rw [List.perm_ext_iff_of_nodup (hkeys.filter _) (hmore.filter _)]
  intro k
  simp [and_comm]

/-- **A difference has as many more items added than removed as there are more items.** -/
theorem change_length_newcomers {before after : List α} (hbefore : (before.map key).Nodup)
    (hafter : (after.map key).Nodup) : change before.length after.length =
      change (newcomers key before after).length (newcomers key after before).length := by
  have hremoved := length_newcomers key hbefore after
  have hadded := length_newcomers key hafter before
  have hcommon := length_common hbefore hafter
  unfold change
  omega

end

/-! ## Connections of all names -/

theorem sum_change (names : List α) (before after : α → Nat) :
    (names.map fun name => change (before name) (after name)).sum =
      change (names.map before).sum (names.map after).sum := by
  induction names with
  | nil => rfl
  | cons name names ih =>
      rw [List.map_cons, List.sum_cons, ih]
      simp only [List.map_cons, List.sum_cons, change]
      omega

namespace Graph

variable {graph before after : Graph}

theorem IsConsistent.connections_eq (hconsistent : graph.IsConsistent) (name : String) :
    graph.connections name = (graph.edges.countP fun edge => edge.source = name) +
      graph.edges.countP fun edge => edge.target = name := by
  rw [connections]
  split
  next => rfl
  next hname =>
    -- No edge has an end that is not declared.
    have hsource : (graph.edges.countP fun edge => edge.source = name) = 0 := by
      rw [List.countP_eq_zero]
      intro edge hedge hsame
      exact hname (of_decide_eq_true hsame ▸ hconsistent.source_mem edge hedge)
    have htarget : (graph.edges.countP fun edge => edge.target = name) = 0 := by
      rw [List.countP_eq_zero]
      intro edge hedge hsame
      exact hname (of_decide_eq_true hsame ▸ hconsistent.target_mem edge hedge)
    rw [hsource, htarget]

/-- Every edge is counted at two names, whatever other names there are. -/
theorem IsConsistent.sum_connections (hconsistent : graph.IsConsistent) {names : List String}
    (hnodup : names.Nodup) (hnames : graph.nodes.map Node.name ⊆ names) :
    (names.map graph.connections).sum = 2 * graph.edges.length := by
  have hsource := sum_countP_of_forall_mem Edge.source hnodup fun edge hedge =>
    hnames (hconsistent.source_mem edge hedge)
  have htarget := sum_countP_of_forall_mem Edge.target hnodup fun edge hedge =>
    hnames (hconsistent.target_mem edge hedge)
  have htotal : graph.connections = fun name =>
      (graph.edges.countP fun edge => edge.source = name) +
        graph.edges.countP fun edge => edge.target = name :=
    funext hconsistent.connections_eq
  rw [htotal, List.sum_map_add, hsource, htarget]
  omega

/-- Over all names of two graphs, the connections change by twice as much as the edges. -/
theorem sum_couplings (hbefore : before.IsConsistent) (hafter : after.IsConsistent) :
    ((couplings before after).map fun coupling => change coupling.before coupling.after).sum =
      2 * change before.edges.length after.edges.length := by
  rw [couplings, ← firsts_eq_firstOccurrences, List.map_map]
  have hnodup := nodup_firsts (before.nodes.map Node.name ++ after.nodes.map Node.name)
  have hbeforeSum := hbefore.sum_connections hnodup fun name hname =>
    mem_firsts.mpr (List.mem_append_left _ hname)
  have hafterSum := hafter.sum_connections hnodup fun name hname =>
    mem_firsts.mpr (List.mem_append_right _ hname)
  have hsum := sum_change (firsts id (before.nodes.map Node.name ++ after.nodes.map Node.name))
    before.connections after.connections
  rw [hbeforeSum, hafterSum] at hsum
  refine hsum.trans ?_
  unfold change
  omega

/-- Names whose connections did not change do not count. -/
theorem sum_couplingChanges (before after : Graph) :
    ((couplingChanges before after).map fun coupling => change coupling.before coupling.after).sum =
      ((couplings before after).map fun coupling =>
        change coupling.before coupling.after).sum := by
  simp only [couplingChanges, firsts_eq_firstOccurrences, totalOf_eq_connections]
  change ((List.filter _ (couplings before after)).map _).sum = _
  induction couplings before after with
  | nil => rfl
  | cons coupling rest ih =>
      rw [List.filter_cons]
      split
      · rw [List.map_cons, List.sum_cons, ih, List.map_cons, List.sum_cons]
      next hsame =>
        have hsame : coupling.before = coupling.after := by simpa using hsame
        rw [ih, List.map_cons, List.sum_cons, hsame, Report.change, Int.sub_self, Int.zero_add]

end Graph

/-! ## The closing line -/

/-- A text that ends in a digit. -/
def Text.EndsInDigit (text : String) : Prop :=
  ∃ c, text.toList.getLast? = some c ∧ c.isDigit = true

theorem Text.EndsInDigit.append {more : String} (hmore : EndsInDigit more) (text : String) :
    EndsInDigit (text ++ more) := by
  obtain ⟨c, hlast, hdigit⟩ := hmore
  refine ⟨c, ?_, hdigit⟩
  rw [String.toList_append, List.getLast?_append, hlast]
  rfl

theorem Text.endsInDigit_repr (n : Nat) : EndsInDigit n.repr := by
  have hne : Nat.toDigits 10 n ≠ [] := Nat.toDigits_ne_nil
  refine ⟨(Nat.toDigits 10 n).getLast hne, ?_, isDigit_toDigits (List.getLast_mem hne)⟩
  rw [Nat.repr_eq_ofList_toDigits, String.toList_ofList, List.getLast?_eq_some_getLast hne]

theorem Report.endsInDigit_withSign (difference : Int) : Text.EndsInDigit (withSign difference) := by
  rw [withSign]
  split
  · exact ⟨'0', rfl, rfl⟩
  · exact (Text.endsInDigit_repr _).append _

namespace GraphDiff

variable {diff : GraphDiff} {before after : Graph}

/-- What the closing line counts: how many types and dependencies are added and removed, as far as there
are any. -/
def amounts (diff : GraphDiff) : List String :=
  ([(diff.addedNodes.length, "type", "added"), (diff.removedNodes.length, "type", "removed"),
    (diff.addedEdges.length, "dep", "added"), (diff.removedEdges.length, "dep", "removed")].filter
      fun (count, _, _) => count ≠ 0).map fun (count, word, action) =>
        toString count ++ " " ++ word ++ (if count = 1 then "" else "s") ++ " " ++ action

theorem part_eq (items : List α) (word action : String) :
    part items word action = if items.length = 0 then []
      else [toString items.length ++ " " ++ word ++ (if items.length = 1 then "" else "s") ++ " " ++
        action] := by
  cases items with
  | nil => rfl
  | cons item rest =>
      rw [part, if_neg (by simp), if_neg (by simp), counted]
      by_cases hone : (item :: rest).length = 1
      · rw [if_neg (by omega), if_pos hone]
      · have hmore : 1 < (item :: rest).length := by
          rw [List.length_cons] at hone ⊢
          omega
        rw [if_pos hmore, if_neg hone]

theorem amounts_eq (diff : GraphDiff) : diff.amounts =
    part diff.addedNodes "type" "added" ++ part diff.removedNodes "type" "removed" ++
      part diff.addedEdges "dep" "added" ++ part diff.removedEdges "dep" "removed" := by
  simp only [part_eq, amounts, List.filter_cons, List.filter_nil, ne_eq, decide_not, Bool.not_eq_true',
    decide_eq_false_iff_not]
  split <;> split <;> split <;> split <;> simp_all

theorem part_eq_nil_iff {items : List α} {word action : String} :
    part items word action = [] ↔ items = [] := by
  unfold part
  split <;> simp_all

theorem amounts_eq_nil_iff : diff.amounts = [] ↔ diff.isEmpty = true := by
  simp only [amounts_eq, List.append_eq_nil_iff, part_eq_nil_iff, isEmpty, Bool.and_eq_true,
    List.isEmpty_iff]

theorem closing_of_isEmpty (hempty : diff.isEmpty = true) (edgeChange : Int) :
    diff.closing edgeChange = "No architectural changes detected." := by
  have hamounts := amounts_eq_nil_iff.mpr hempty
  rw [amounts_eq] at hamounts
  rw [closing, hamounts]

theorem closing_of_not_isEmpty (hempty : ¬ diff.isEmpty = true) (edgeChange : Int) :
    diff.closing edgeChange = String.intercalate ", " diff.amounts ++ ". Net coupling: " ++
      withSign edgeChange ++ "." := by
  have hamounts := mt amounts_eq_nil_iff.mp hempty
  rw [amounts_eq] at hamounts ⊢
  rw [closing]
  split
  next hnil => exact absurd hnil hamounts
  next => rw [signed_eq_withSign]; rfl

/-- What ends with counts does not end with saying that nothing changed. -/
theorem ne_unchanged {text : String} (htext : Text.EndsInDigit text) (front : String) :
    text ++ "." ≠ front ++ "No architectural changes detected." := by
  intro hsame
  have hchars : text.toList ++ ['.'] =
      (front.toList ++ "No architectural changes detected".toList) ++ ['.'] := by
    have hlists := congrArg String.toList hsame
    rw [String.toList_append, String.toList_append] at hlists
    rw [List.append_assoc]
    exact hlists
  obtain ⟨c, hlast, hdigit⟩ := htext
  rw [List.append_cancel_right hchars, List.getLast?_append] at hlast
  obtain rfl : 'd' = c := Option.some.inj hlast
  exact absurd hdigit (by decide)

theorem report_eq_append (diff : GraphDiff) (before after : Graph) :
    ∃ front, diff.report before after =
      front ++ diff.closing (change before.edges.length after.edges.length) := by
  rw [report_eq, reportLines_eq, List.append_cons, String.intercalate_append_of_ne_nil (by simp)
    (by simp), String.intercalate_singleton]
  exact ⟨_, rfl⟩

/-- **A report says at its end that nothing changed if and only if the difference is empty.** -/
theorem exists_report_eq_unchanged_iff : (∃ front, diff.report before after =
    front ++ "No architectural changes detected.") ↔ diff.isEmpty = true := by
  obtain ⟨front, hreport⟩ := report_eq_append diff before after
  constructor
  · rintro ⟨other, hother⟩
    by_contra hempty
    rw [hreport, closing_of_not_isEmpty hempty, ← String.append_assoc] at hother
    exact ne_unchanged (((Report.endsInDigit_withSign _).append _).append _) other hother
  · intro hempty
    rw [hreport, closing_of_isEmpty hempty]
    exact ⟨_, rfl⟩

end GraphDiff

namespace Graph

variable {before after : Graph}

/-- The figures in the report of the difference of two graphs agree with its lists. -/
structure Balances (before after : Graph) : Prop where
  /-- There are as many more nodes as more nodes are added than removed. -/
  nodes_eq : (after.nodes.length : Int) - before.nodes.length =
    (before.diff after).addedNodes.length - (before.diff after).removedNodes.length
  /-- There are as many more edges as more edges are added than removed. -/
  edges_eq : (after.edges.length : Int) - before.edges.length =
    (before.diff after).addedEdges.length - (before.diff after).removedEdges.length
  /-- This is what the report says.  It has three lines with figures at the top, and at the end, if
  there is a difference, the net change of edges behind the counts of what is added and removed. -/
  report_eq : ∃ sections verdict,
    (before.diff after).report before after = String.intercalate "\n"
      (["## Architecture Changes", "",
          "**Before:** " ++ toString before.nodes.length ++ " types, " ++
            toString before.edges.length ++ " dependencies",
          "**After:** " ++ toString after.nodes.length ++ " types, " ++
            toString after.edges.length ++ " dependencies",
          "**Delta:** " ++ withSign ((before.diff after).addedNodes.length -
            (before.diff after).removedNodes.length) ++ " types, " ++
            withSign ((before.diff after).addedEdges.length -
              (before.diff after).removedEdges.length) ++ " dependencies", ""] ++
        sections ++ ["### Summary", verdict]) ∧
    (∀ line ∈ sections, ¬ IsFigure line) ∧
    (SameKeys before after → verdict = "No architectural changes detected.") ∧
    (¬ SameKeys before after → verdict =
      String.intercalate ", " (before.diff after).amounts ++ ". Net coupling: " ++
        withSign ((before.diff after).addedEdges.length - (before.diff after).removedEdges.length) ++
        ".")
  /-- What is printed of a number tells the number. -/
  withSign_injective : Function.Injective withSign
  /-- The connections of all names change by twice as much as there are more edges. -/
  couplings_sum :
    ((couplings before after).map fun coupling => (coupling.after : Int) - coupling.before).sum =
      2 * ((after.edges.length : Int) - before.edges.length)
  /-- So do those of the names whose connections change. -/
  changes_sum :
    ((couplingChanges before after).map fun coupling =>
      (coupling.after : Int) - coupling.before).sum =
        2 * ((after.edges.length : Int) - before.edges.length)
  /-- The report ends with saying that nothing changed exactly if no key did. -/
  unchanged_iff : (∃ front, (before.diff after).report before after =
    front ++ "No architectural changes detected.") ↔ SameKeys before after

theorem IsConsistent.change_nodes (hbefore : before.IsConsistent) (hafter : after.IsConsistent) :
    change before.nodes.length after.nodes.length =
      change (before.diff after).removedNodes.length (before.diff after).addedNodes.length :=
  change_length_newcomers Node.key hbefore.nodup_nodes hafter.nodup_nodes

theorem IsConsistent.change_edges (hbefore : before.IsConsistent) (hafter : after.IsConsistent) :
    change before.edges.length after.edges.length =
      change (before.diff after).removedEdges.length (before.diff after).addedEdges.length :=
  change_length_newcomers Edge.key hbefore.nodup_edges hafter.nodup_edges

/-- **The report of a difference balances.**  For graphs of scans, saved or not, its deltas agree with
its lists and with the connections of the names, and it says that nothing changed exactly if the keys
are the same. -/
theorem report_balances (hbefore : before.IsScanned) (hafter : after.IsScanned) :
    Balances before after := by
  have hpast := hbefore.isConsistent
  have hnow := hafter.isConsistent
  have hnodes : (after.nodes.length : Int) - before.nodes.length =
      (before.diff after).addedNodes.length - (before.diff after).removedNodes.length :=
    hpast.change_nodes hnow
  have hedges : (after.edges.length : Int) - before.edges.length =
      (before.diff after).addedEdges.length - (before.diff after).removedEdges.length :=
    hpast.change_edges hnow
  have hcouplings := sum_couplings hpast hnow
  constructor
  case nodes_eq => exact hnodes
  case edges_eq => exact hedges
  case report_eq =>
    refine ⟨((before.diff after).sections before after).flatMap fun part => titled part.1 part.2,
      (before.diff after).closing (change before.edges.length after.edges.length), ?_,
      GraphDiff.not_isFigure_sections, fun hkeys => ?_, fun hkeys => ?_⟩
    · rw [← hnodes, ← hedges, ← signed_eq_withSign, ← signed_eq_withSign, GraphDiff.report_eq,
        GraphDiff.reportLines_eq]
      rfl
    · exact GraphDiff.closing_of_isEmpty (isEmpty_diff_iff.mpr hkeys) _
    · rw [← hedges]
      exact GraphDiff.closing_of_not_isEmpty (mt isEmpty_diff_iff.mp hkeys) _
  case withSign_injective => exact Report.withSign_injective
  case couplings_sum => exact hcouplings
  case changes_sum => exact (sum_couplingChanges before after).trans hcouplings
  case unchanged_iff => exact GraphDiff.exists_report_eq_unchanged_iff.trans isEmpty_diff_iff

/-- A field of one type refers to another one. -/
def fieldGraph : Graph :=
  assemble [⟨"Order", .classType, "a.ts", 62, by decide, by decide⟩,
      ⟨"Item", .interfaceType, "b.ts", 63, by decide, by decide⟩]
    [⟨"Order", "Item", .fieldType, by decide, by decide⟩] none
    ⟨2026, 6, 2, 7, 30, 0, 0, some 0, by decide⟩

/-- Of the two types one has gone, and a new one refers to the other and is referred to. -/
def cycleGraph : Graph :=
  assemble [⟨"Order", .classType, "a.ts", 62, by decide, by decide⟩,
      ⟨"Line", .classType, "c.ts", 64, by decide, by decide⟩]
    [⟨"Order", "Line", .fieldType, by decide, by decide⟩,
      ⟨"Line", "Order", .methodReturn, by decide, by decide⟩,
      ⟨"Line", "Item", .fieldType, by decide, by decide⟩] none
    ⟨2026, 6, 3, 7, 30, 0, 0, some 0, by decide⟩

theorem isScanned_fieldGraph : fieldGraph.IsScanned := by
  have hzone : fieldGraph.scannedAt.HasMinuteZone := by
    intro seconds hseconds
    obtain rfl : 0 = seconds := Option.some.inj hseconds
    decide
  have hshort : fieldGraph.HasShortLines := by
    unfold HasShortLines
    decide
  exact .readBack (.assembled _ _ _ _) (ofText_of_hasShortLines hzone hshort)

theorem report_balances_fieldGraph_cycleGraph :
    fieldGraph.IsScanned ∧ cycleGraph.IsScanned ∧ ¬ SameKeys fieldGraph cycleGraph ∧
      Balances fieldGraph cycleGraph := by
  have hcycle : cycleGraph.IsScanned := .assembled _ _ _ _
  refine ⟨isScanned_fieldGraph, hcycle, ?_, report_balances isScanned_fieldGraph hcycle⟩
  rw [← isEmpty_diff_iff]
  decide

end Graph

end TypeAtlas
