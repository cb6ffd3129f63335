import TypeAtlas.Proofs.Extraction.SourceOrder

/-!
# What a fragment is made of

Entries that are valid, one by one, make up a fragment: a node for each that declares something, and an
edge for each name that an owner refers to, unless the name is empty or built in.  So a question about
the nodes and edges of a file is a question about its entries (`Extractor.extract_of_valid`), and entries
within a tree that has rows are valid (`Entry.Within.isValid`).
-/

namespace TypeAtlas

open Syntax

namespace Entry

/-- What is declared has a name and a row, and what refers to something has a name. -/
def IsValid : Entry → Prop
  | .declared name _ row => name ≠ "" ∧ 0 ≤ row
  | .refers owner _ _ => owner ≠ ""

theorem Within.isValid {declares : Declares} {root : Tree} {entry : Entry}
    (hentry : entry.Within declares root) (hrows : root.HasRows) : entry.IsValid := by
  cases entry with
  | declared name kind row =>
      obtain ⟨hname, tree, htree, -, rfl⟩ := hentry
      exact ⟨hname, hrows tree htree⟩
  | refers owner names kind => exact hentry

/-- The node that an entry asks for, in a file. -/
def node? (file : String) : Entry → Option Node
  | .declared name kind row =>
    if h : name ≠ "" ∧ 0 ≤ row then
      some ⟨name, kind, file, row.toNat + 1, h.1, Nat.succ_pos row.toNat⟩
    else none
  | .refers _ _ _ => none

/-- The edge from an owner to a name, if there may be one. -/
def edge? (builtins : List String) (owner : String) (kind : EdgeKind) (name : String) :
    Option Edge :=
  if h : owner ≠ "" ∧ name ≠ "" ∧ name ∉ builtins then some ⟨owner, name, kind, h.1, h.2.1⟩
  else none

/-- The edges that an entry asks for. -/
def edges (builtins : List String) : Entry → List Edge
  | .declared _ _ _ => []
  | .refers owner names kind => names.filterMap (edge? builtins owner kind)

theorem edge?_eq_some_iff {builtins : List String} {owner name : String} {kind : EdgeKind}
    {edge : Edge} :
    edge? builtins owner kind name = some edge ↔
      edge.source = owner ∧ edge.target = name ∧ edge.kind = kind ∧ name ∉ builtins := by
  rw [edge?]
  constructor
  · intro hedge
    split at hedge
    case isTrue hname =>
      obtain rfl := Option.some.inj hedge
      exact ⟨rfl, rfl, rfl, hname.2.2⟩
    case isFalse => cases hedge
  · rintro ⟨rfl, rfl, rfl, hname⟩
    exact dif_pos ⟨edge.source_ne, edge.target_ne, hname⟩

end Entry

/-- The fragment of some entries. -/
def Fragment.ofEntries (file : String) (builtins : List String) (entries : List Entry) : Fragment :=
  ⟨entries.filterMap (Entry.node? file), entries.flatMap (Entry.edges builtins)⟩

theorem Fragment.ofEntries_append (file : String) (builtins : List String)
    (entries more : List Entry) :
    ofEntries file builtins (entries ++ more) =
      .joined [ofEntries file builtins entries, ofEntries file builtins more] := by
  simp [ofEntries, joined]

namespace Builder

/-- A builder that has taken a fragment after what it had. -/
def extend (builder : Builder) (fragment : Fragment) : Builder :=
  { builder with
    nodes := fragment.nodes.reverse ++ builder.nodes
    edges := fragment.edges.reverse ++ builder.edges }

theorem extend_extend (builder : Builder) (fragment more : Fragment) :
    (builder.extend fragment).extend more = builder.extend (.joined [fragment, more]) := by
  simp [extend, Fragment.joined]

theorem admits_iff {builder : Builder} {name : String} :
    builder.admits name = true ↔ name ≠ "" ∧ name ∉ builder.builtins := by
  simp [admits]

theorem addEdges_eq_extend (builder : Builder) {owner : String} (howner : owner ≠ "")
    (names : List String) (kind : EdgeKind) :
    builder.addEdges owner names kind.name =
      (builder.extend ⟨[], names.filterMap (Entry.edge? builder.builtins owner kind)⟩, .ok ()) := by
  induction names generalizing builder with
  | nil => rfl
  | cons name names ih =>
      rw [addEdges]
      split
      case isTrue hadmits =>
        have hname := admits_iff.mp hadmits
        have hedge : Entry.edge? builder.builtins owner kind name =
            some ⟨owner, name, kind, howner, hname.1⟩ := dif_pos ⟨howner, hname⟩
        rw [edge, Edge.check_fields kind howner hname.1, List.filterMap_cons_some hedge]
        simp only [ih]
        simp [extend]
      case isFalse hadmits =>
        have hedge : Entry.edge? builder.builtins owner kind name = none :=
          dif_neg fun hall => hadmits (admits_iff.mpr hall.2)
        rw [ih, List.filterMap_cons_none hedge]

theorem add_eq_extend (builder : Builder) {entry : Entry} (hentry : entry.IsValid) :
    builder.add entry = .ok (builder.extend (.ofEntries builder.file builder.builtins [entry])) := by
  cases entry with
  | declared name kind row =>
      obtain ⟨hname, hrow⟩ := hentry
      have hnode : Entry.node? builder.file (.declared name kind row) =
          some ⟨name, kind, builder.file, row.toNat + 1, hname, Nat.succ_pos row.toNat⟩ :=
        dif_pos ⟨hname, hrow⟩
      obtain ⟨line, rfl⟩ := Int.eq_ofNat_of_zero_le hrow
      have hchecked := Node.check_fields kind builder.file hname (Nat.succ_pos line)
      rw [add, addNode, Fragment.ofEntries, List.filterMap_cons_some hnode]
      exact congrArg _ hchecked
  | refers owner names kind =>
      rw [add, addEdges_eq_extend builder hentry]
      simp [extend, Fragment.ofEntries, Entry.edges, Entry.node?]

/-- **Valid entries are all taken**, each with the node or the edges that it asks for. -/
theorem addAll_eq_extend (builder : Builder) {entries : List Entry}
    (hentries : ∀ entry ∈ entries, entry.IsValid) :
    builder.addAll entries =
      .ok (builder.extend (.ofEntries builder.file builder.builtins entries)) := by
  induction entries generalizing builder with
  | nil => rfl
  | cons entry entries ih =>
      obtain ⟨hentry, hrest⟩ := List.forall_mem_cons.mp hentries
      rw [addAll, add_eq_extend builder hentry]
      have happend := Fragment.ofEntries_append builder.file builder.builtins [entry] entries
      rw [List.singleton_append] at happend
      rw [happend, ← extend_extend]
      exact ih _ hrest

end Builder

namespace Extractor

variable {extractor : Extractor} {visit : Visit} {root : Tree}

/-- The fragment of a file whose entries are valid. -/
theorem extract_of_valid (hextractor : extractor.visit? = some visit)
    (hvalid : ∀ entry ∈ visit.entriesOf root, entry.IsValid) (file : String) :
    extractor.extract root file =
      .ok (.ofEntries file extractor.builtins (visit.entriesOf root)) := by
  rw [extract_eq hextractor, Builder.fragmentOf, Builder.addAll_eq_extend _ hvalid]
  simp [Builder.extend, Builder.build, Builder.cleared, Fragment.ofEntries, Except.map, Except.mapError]

theorem isValid_of_isWithin {declares : Declares} (hvisit : visit.IsWithin declares)
    (hrows : root.HasRows) : ∀ entry ∈ visit.entriesOf root, entry.IsValid := by
  intro entry hentry
  rw [← visit.entries_singleton] at hentry
  exact (Visit.within_entries hvisit root entry hentry).isValid hrows

end Extractor
end TypeAtlas
