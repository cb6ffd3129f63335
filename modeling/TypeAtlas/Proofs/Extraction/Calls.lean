import TypeAtlas.Proofs.Extraction.Fragments
import TypeAtlas.Proofs.Graph.Format

/-!
# Calls on a builder

A call on a builder asks for a node, or for the edges from an owner to some names.  It may be refused,
and then the builder is as it was, although edges are taken one by one: names that could not be
targets are passed over before an edge is made, so what is wrong with one edge, its owner or its kind,
is wrong with the first (`Builder.addEdges_refused`).

`Call.contribution?` says what a call contributes, if it is not refused, and `Builder.answers_perform`
that it does just this.  So whatever calls there were, a builder gives what those contributed that were
not refused, in order (`Builder.performAll_spec`).
-/

namespace TypeAtlas

open Syntax

theorem EdgeKind.ofName?_eq_none_iff {name : String} :
    ofName? name = none ↔ ∀ kind : EdgeKind, kind.name ≠ name := by
  simp only [Option.eq_none_iff_forall_ne_some, ne_eq, ofName?_eq_some_iff, @eq_comm _ name]

namespace Builder

/-! ## Single nodes and edges -/

/-- An edge that is not refused has an owner and one of the kinds. -/
theorem edge_of_ok {owner target kind : String} {found : Edge}
    (hfound : edge owner target kind = .ok found) : owner ≠ "" ∧ found.kind.name = kind := by
  obtain ⟨fields, hfields, hgiven⟩ := Edge.ofJson_eq_ok_iff.mp (Checked.titled_eq_ok_iff.mp hfound)
  obtain rfl := Json.obj.inj hfields
  have hsource : Field.Has [("source", .str owner), ("target", .str target), ("kind", .str kind)]
      ["from", "source"] (.str owner) := ⟨"source", by simp, rfl, by simp [Json.lookup?]⟩
  have hkind : Field.Has [("source", .str owner), ("target", .str target), ("kind", .str kind)]
      ["kind"] (.str kind) := ⟨"kind", by simp, rfl, by simp⟩
  obtain rfl := Json.str.inj (hgiven.source.unique hsource)
  exact ⟨found.source_ne, Json.str.inj (hgiven.kind.unique hkind)⟩

/-- A node that is not refused has a name, one of the kinds, and a row. -/
theorem addNode_of_ok {builder extended : Builder} {name kind : String} {row : Int}
    (hadd : builder.addNode name kind row = .ok extended) :
    (name ≠ "" ∧ 0 ≤ row) ∧ ∃ known : NodeKind, known.name = kind := by
  obtain ⟨found, hfound, -⟩ := map_eq_ok_iff.mp hadd
  obtain ⟨fields, hfields, hgiven⟩ := Node.ofJson_eq_ok_iff.mp (Checked.titled_eq_ok_iff.mp hfound)
  have hname : Field.Has fields ["name"] (.str name) := by
    rw [← Json.obj.inj hfields]
    exact ⟨"name", by simp, rfl, by simp⟩
  have hkind : Field.Has fields ["kind"] (.str kind) := by
    rw [← Json.obj.inj hfields]
    exact ⟨"kind", by simp, rfl, by simp⟩
  have hline : Field.Has fields ["line"] (.ofInt (row + 1)) := by
    rw [← Json.obj.inj hfields]
    exact ⟨"line", by simp, rfl, by simp⟩
  obtain ⟨input, hinput, hinteger⟩ := hgiven.line
  obtain rfl := hinput.unique hline
  obtain rfl := Json.str.inj (hgiven.name.unique hname)
  have hrow : row + 1 = found.line := Except.ok.inj hinteger
  have hpos := found.line_pos
  exact ⟨⟨found.name_ne, by omega⟩, found.kind, Json.str.inj (hgiven.kind.unique hkind)⟩

/-! ## Edges from one owner -/

variable {builder : Builder} {owner kind : String} {names : List String}

theorem edge_refused (hwrong : owner = "" ∨ ∀ known : EdgeKind, known.name ≠ kind) (target : String) :
    ∃ report, edge owner target kind = .error report := by
  cases hfound : edge owner target kind with
  | error report => exact ⟨report, rfl⟩
  | ok found =>
      obtain ⟨howner, hkind⟩ := edge_of_ok hfound
      rcases hwrong with hempty | hunknown
      · exact absurd hempty howner
      · exact absurd hkind (hunknown found.kind)

/-- Names that are passed over are no reason to refuse anything. -/
theorem addEdges_of_forall (hnames : ∀ name ∈ names, ¬ (name ≠ "" ∧ name ∉ builder.builtins))
    (owner kind : String) : builder.addEdges owner names kind = (builder, .ok ()) := by
  induction names with
  | nil => rfl
  | cons name names ih =>
      obtain ⟨hname, hrest⟩ := List.forall_mem_cons.mp hnames
      rw [addEdges, if_neg (mt admits_iff.mp hname), ih hrest]

/-- **Edges are refused together**: if there is an edge to be made and it is refused, it is the first
one that there is, and the builder is as it was. -/
theorem addEdges_refused (hnames : ∃ name ∈ names, name ≠ "" ∧ name ∉ builder.builtins)
    (hwrong : owner = "" ∨ ∀ known : EdgeKind, known.name ≠ kind) :
    ∃ report, builder.addEdges owner names kind = (builder, .error report) := by
  induction names with
  | nil =>
      obtain ⟨name, hname, -⟩ := hnames
      cases hname
  | cons name names ih =>
      rw [addEdges]
      split
      case isTrue hadmits =>
        obtain ⟨report, hreport⟩ := edge_refused hwrong name
        rw [hreport]
        exact ⟨report, rfl⟩
      case isFalse hadmits =>
        obtain ⟨other, hother, htarget⟩ := hnames
        rcases List.mem_cons.mp hother with rfl | hother
        · exact absurd (admits_iff.mpr htarget) hadmits
        · exact ih ⟨other, hother, htarget⟩

/-! ## Calls -/

/-- One call on a builder. -/
inductive Call where
  | node (name kind : String) (row : Int)
  | edges (owner : String) (names : List String) (kind : String)
  deriving Repr, DecidableEq

/-- What a call contributes to the fragment of a file, unless it is refused.  Edges without a target
are never refused, whatever their owner and kind. -/
def Call.contribution? (file : String) (builtins : List String) : Call → Option Fragment
  | .node name kind row =>
    (NodeKind.ofName? kind).bind fun known =>
      (Entry.node? file (.declared name known row)).map fun node => ⟨[node], []⟩
  | .edges owner names kind =>
    if ∃ name ∈ names, name ≠ "" ∧ name ∉ builtins then
      if owner = "" then none
      else (EdgeKind.ofName? kind).map fun known =>
        ⟨[], names.filterMap (Entry.edge? builtins owner known)⟩
    else some ⟨[], []⟩

/-- The builder after a call, and whether the call was refused. -/
def perform (builder : Builder) : Call → Builder × Except ValidationReport Unit
  | .node name kind row =>
    match builder.addNode name kind row with
    | .ok extended => (extended, .ok ())
    | .error report => (builder, .error report)
  | .edges owner names kind => builder.addEdges owner names kind

/-- The builder after some calls, and which of them were refused. -/
def performAll (builder : Builder) : List Call → Builder × List (Except ValidationReport Unit)
  | [] => (builder, [])
  | call :: calls =>
    let (extended, outcome) := builder.perform call
    let (last, outcomes) := extended.performAll calls
    (last, outcome :: outcomes)

/-- How a builder answers to a call with a contribution: it takes it, or it is as it was. -/
inductive Answers (builder : Builder) :
    Option Fragment → Builder × Except ValidationReport Unit → Prop where
  | taken (fragment : Fragment) :
      Answers builder (some fragment) (builder.extend fragment, .ok ())
  | refused (report : ValidationReport) : Answers builder none (builder, .error report)

theorem answers_perform_node (builder : Builder) (name kind : String) (row : Int) :
    builder.Answers ((Call.node name kind row).contribution? builder.file builder.builtins)
      (builder.perform (.node name kind row)) := by
  by_cases hvalid : (name ≠ "" ∧ 0 ≤ row) ∧ ∃ known : NodeKind, known.name = kind
  · obtain ⟨hname, known, rfl⟩ := hvalid
    have hadd : builder.add (.declared name known row) = _ := builder.add_eq_extend hname
    rw [add] at hadd
    have hnode : Entry.node? builder.file (.declared name known row) = _ := dif_pos hname
    rw [perform, hadd, Call.contribution?, NodeKind.ofName?_name, Option.bind_some, hnode,
      Fragment.ofEntries, List.filterMap_cons_some hnode]
    exact .taken _
  · have hnone : (Call.node name kind row).contribution? builder.file builder.builtins = none := by
      rw [Call.contribution?, Option.bind_eq_none_iff]
      intro known hknown
      rw [Option.map_eq_none_iff]
      exact dif_neg fun hname => hvalid ⟨hname, known, (NodeKind.ofName?_eq_some_iff.mp hknown).symm⟩
    rw [hnone, perform]
    cases hadd : builder.addNode name kind row with
    | ok extended => exact absurd (addNode_of_ok hadd) hvalid
    | error report => exact .refused report

theorem contribution?_edges_eq_none_iff {file : String} {builtins : List String} :
    (Call.edges owner names kind).contribution? file builtins = none ↔
      (∃ name ∈ names, name ≠ "" ∧ name ∉ builtins) ∧
        (owner = "" ∨ ∀ known : EdgeKind, known.name ≠ kind) := by
  rw [Call.contribution?]
  split
  case isFalse hnames => exact iff_of_false nofun fun hboth => hnames hboth.1
  case isTrue hnames =>
    rw [and_iff_right hnames, ← EdgeKind.ofName?_eq_none_iff]
    split
    case isTrue howner => exact iff_of_true rfl (.inl howner)
    case isFalse howner => rw [Option.map_eq_none_iff, or_iff_right howner]

theorem map_edge?_eq {builtins : List String} (howner : owner ≠ "") (known : EdgeKind)
    (names : List String) :
    ((names.filterMap (Entry.edge? builtins owner known)).map fun edge =>
        (edge.source, edge.target, edge.kind.name)) =
      (names.filter fun name => name ≠ "" ∧ name ∉ builtins).map fun name =>
        (owner, name, known.name) := by
  induction names with
  | nil => rfl
  | cons name names ih =>
      by_cases hname : name ≠ "" ∧ name ∉ builtins
      · have hedge : Entry.edge? builtins owner known name = _ := dif_pos ⟨howner, hname⟩
        rw [List.filterMap_cons_some hedge, List.filter_cons_of_pos (by simpa using hname),
          List.map_cons, List.map_cons, ih]
      · have hedge : Entry.edge? builtins owner known name = none :=
          dif_neg fun hall => hname hall.2
        rw [List.filterMap_cons_none hedge, List.filter_cons_of_neg (by simpa using hname), ih]

/-- The edges that a call contributes are those from its owner to the names that could be targets. -/
theorem of_contribution?_edges {file : String} {builtins : List String} {fragment : Fragment}
    (hfragment : (Call.edges owner names kind).contribution? file builtins = some fragment) :
    fragment.nodes = [] ∧
      (fragment.edges.map fun edge => (edge.source, edge.target, edge.kind.name)) =
        (names.filter fun name => name ≠ "" ∧ name ∉ builtins).map fun name =>
          (owner, name, kind) := by
  rw [Call.contribution?] at hfragment
  split at hfragment
  case isFalse hnames =>
    obtain rfl := Option.some.inj hfragment
    have hnone : (names.filter fun name => name ≠ "" ∧ name ∉ builtins) = [] := by
      rw [List.filter_eq_nil_iff]
      intro name hname htarget
      exact hnames ⟨name, hname, of_decide_eq_true htarget⟩
    rw [hnone]
    exact ⟨rfl, rfl⟩
  case isTrue hnames =>
    split at hfragment
    case isTrue howner => cases hfragment
    case isFalse howner =>
      obtain ⟨known, hknown, rfl⟩ := Option.map_eq_some_iff.mp hfragment
      rw [EdgeKind.ofName?_eq_some_iff.mp hknown]
      exact ⟨rfl, map_edge?_eq howner known names⟩

theorem answers_perform_edges (builder : Builder) (owner : String) (names : List String)
    (kind : String) :
    builder.Answers ((Call.edges owner names kind).contribution? builder.file builder.builtins)
      (builder.perform (.edges owner names kind)) := by
  cases hgiven : (Call.edges owner names kind).contribution? builder.file builder.builtins with
  | none =>
      obtain ⟨hnames, hwrong⟩ := contribution?_edges_eq_none_iff.mp hgiven
      obtain ⟨report, hreport⟩ := addEdges_refused hnames hwrong
      rw [perform, hreport]
      exact .refused report
  | some fragment =>
      rw [Call.contribution?] at hgiven
      split at hgiven
      case isFalse hnames =>
        obtain rfl := Option.some.inj hgiven
        rw [perform, addEdges_of_forall fun name hname htarget => hnames ⟨name, hname, htarget⟩]
        exact .taken ⟨[], []⟩
      case isTrue hnames =>
        split at hgiven
        case isTrue howner => cases hgiven
        case isFalse howner =>
          obtain ⟨known, hknown, rfl⟩ := Option.map_eq_some_iff.mp hgiven
          obtain rfl := EdgeKind.ofName?_eq_some_iff.mp hknown
          rw [perform, addEdges_eq_extend builder howner]
          exact .taken _

/-- **What a call does** is to contribute, or to be refused without a trace. -/
theorem answers_perform (builder : Builder) (call : Call) :
    builder.Answers (call.contribution? builder.file builder.builtins) (builder.perform call) := by
  cases call with
  | node name kind row => exact answers_perform_node builder name kind row
  | edges owner names kind => exact answers_perform_edges builder owner names kind

theorem build_extend (builder : Builder) (fragment : Fragment) :
    (builder.extend fragment).build = .joined [builder.build, fragment] := by
  simp [extend, build, Fragment.joined]

/-- Whatever calls there are, a builder gives what those contribute that are not refused, in order. -/
theorem performAll_spec (builder : Builder) (calls : List Call) :
    (builder.performAll calls).1.build = .joined (builder.build ::
        calls.filterMap (Call.contribution? builder.file builder.builtins)) ∧
      (builder.performAll calls).2.map Except.isOk = calls.map fun call =>
        (call.contribution? builder.file builder.builtins).isSome := by
  induction calls generalizing builder with
  | nil => exact ⟨by simp [performAll, Fragment.joined], rfl⟩
  | cons call calls ih =>
      have hcall := builder.answers_perform call
      simp only [performAll, List.map_cons, List.filterMap_cons]
      generalize call.contribution? builder.file builder.builtins = given at hcall ⊢
      generalize builder.perform call = done at hcall ⊢
      cases hcall with
      | taken fragment =>
          obtain ⟨hbuild, houtcomes⟩ := ih (builder.extend fragment)
          refine ⟨?_, congrArg (true :: ·) houtcomes⟩
          refine hbuild.trans ?_
          rw [build_extend]
          simp [Fragment.joined, extend]
      | refused report =>
          obtain ⟨hbuild, houtcomes⟩ := ih builder
          exact ⟨hbuild, congrArg (false :: ·) houtcomes⟩

/-- **Edges are added all together or not at all**, to any builder: a call is refused if one of the
names could be a target and the owner or the kind is wrong; then nothing has changed.  Otherwise there
is one more edge for each name that could be a target, in order.  So after any calls the fragment is
what those contributed that were not refused. -/
theorem addEdges_all_or_none (builder : Builder) (owner : String) (names : List String)
    (kind : String) (calls : List Call) :
    let result := builder.addEdges owner names kind
    ((∃ report, result.2 = .error report) ↔
        (∃ name ∈ names, name ≠ "" ∧ name ∉ builder.builtins) ∧
          (owner = "" ∨ ∀ known : EdgeKind, known.name ≠ kind)) ∧
      (∀ report, result.2 = .error report → result.1 = builder) ∧
      (result.2 = .ok () → ∃ edges : List Edge,
        result.1 = { builder with edges := edges.reverse ++ builder.edges } ∧
          (edges.map fun edge => (edge.source, edge.target, edge.kind.name)) =
            (names.filter fun name => name ≠ "" ∧ name ∉ builder.builtins).map fun name =>
              (owner, name, kind)) ∧
      (builder.performAll calls).1.build = .joined (builder.build ::
        calls.filterMap (Call.contribution? builder.file builder.builtins)) ∧
      (builder.performAll calls).2.map Except.isOk = calls.map fun call =>
        (call.contribution? builder.file builder.builtins).isSome := by
  intro result
  have hcall : builder.Answers _ result := builder.answers_perform_edges owner names kind
  have hcalls := builder.performAll_spec calls
  clear_value result
  cases hgiven : (Call.edges owner names kind).contribution? builder.file builder.builtins with
  | none =>
      have hrefused := contribution?_edges_eq_none_iff.mp hgiven
      rw [hgiven] at hcall
      cases hcall with
      | refused report => exact ⟨iff_of_true ⟨report, rfl⟩ hrefused, fun _ _ => rfl, nofun, hcalls⟩
  | some fragment =>
      have htaken : (Call.edges owner names kind).contribution? builder.file builder.builtins ≠ none :=
        hgiven ▸ Option.some_ne_none fragment
      rw [ne_eq, contribution?_edges_eq_none_iff] at htaken
      obtain ⟨hnodes, hedges⟩ := of_contribution?_edges hgiven
      rw [hgiven] at hcall
      cases hcall with
      | taken fragment =>
          refine ⟨iff_of_false nofun htaken, nofun, fun _ => ⟨fragment.edges, ?_, hedges⟩, hcalls⟩
          rw [extend, hnodes]
          rfl

end Builder
end TypeAtlas
