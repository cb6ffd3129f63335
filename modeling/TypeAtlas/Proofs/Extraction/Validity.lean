import TypeAtlas.Extraction.Extractor
import TypeAtlas.Proofs.Graph.WrittenForm

/-!
# Valid entries

Reading a tree comes to nothing only if an entry is refused, and that happens to a declaration without
a name or with a negative row, and to a reference without an owner.  `Entry.Within` says that an entry
is not of this kind and that a declared type comes from a declaration somewhere in a tree.

Entries within a tree of which no row is negative are all accepted, and the nodes are those that the
entries ask for (`Builder.addAll_of_within`).  So all that is left to show of a language is that the
entries of one declaration are within it (`Visit.IsWithin`), and walking through a file keeps this up
(`Visit.within_of_mem_entries`).
-/

namespace TypeAtlas

open Syntax

namespace Syntax.Tree

/-- The subtrees of a tree, the tree itself among them. -/
inductive Contains (root : Tree) : Tree → Prop where
  | self : Contains root root
  | child {tree child : Tree} (htree : Contains root tree) (hchild : child ∈ tree.children) :
      Contains root child

theorem Contains.of_child {root child tree : Tree} (hchild : child ∈ root.children)
    (htree : child.Contains tree) : root.Contains tree := by
  induction htree with
  | self => exact .child .self hchild
  | child _ hbelow ih => exact .child ih hbelow

theorem Contains.trans {root tree below : Tree} (htree : root.Contains tree)
    (hbelow : tree.Contains below) : root.Contains below := by
  induction hbelow with
  | self => exact htree
  | child _ hchild ih => exact .child ih hchild

theorem contains_node_iff {label : Label} {children : List Tree} {tree : Tree} :
    Contains (.node label children) tree ↔
      tree = .node label children ∨ ∃ child ∈ children, child.Contains tree := by
  constructor
  · intro htree
    induction htree with
    | self => exact .inl rfl
    | child _ hbelow ih =>
        rcases ih with rfl | ⟨child, hchild, hcontains⟩
        · exact .inr ⟨_, hbelow, .self⟩
        · exact .inr ⟨child, hchild, .child hcontains hbelow⟩
  · rintro (rfl | ⟨child, hchild, hcontains⟩)
    · exact .self
    · exact .of_child hchild hcontains

/-- The first row is zero, and no subtree starts before it. -/
def HasRows (root : Tree) : Prop := ∀ tree, root.Contains tree → 0 ≤ tree.label.row

theorem hasRows_node {label : Label} {children : List Tree} :
    HasRows (.node label children) ↔ 0 ≤ label.row ∧ ∀ child ∈ children, child.HasRows := by
  constructor
  · intro hrows
    exact ⟨hrows _ .self, fun child hchild tree htree => hrows tree (.of_child hchild htree)⟩
  · rintro ⟨hrow, hchildren⟩ tree htree
    rcases contains_node_iff.mp htree with rfl | ⟨child, hchild, hcontains⟩
    · exact hrow
    · exact hchildren child hchild tree hcontains

end Syntax.Tree

/-- What a language says that a tree declares, if it is a declaration. -/
abbrev Declares := Tree → Option (String × NodeKind)

/-- What is declared, and the line where the declaration starts. -/
structure Declaration where
  name : String
  kind : NodeKind
  line : Int
  deriving Repr, DecidableEq

/-! ## Entries -/

namespace Entry

/-- The node that an entry asks for. -/
def declaration? : Entry → Option Declaration
  | .declared name kind row => some ⟨name, kind, row + 1⟩
  | .refers _ _ _ => none

/-- An entry that a tree contributes: what is declared has a name and comes from a declaration within
the tree, and what refers to something has a name. -/
def Within (declares : Declares) (root : Tree) : Entry → Prop
  | .declared name kind row => name ≠ "" ∧
      ∃ tree, root.Contains tree ∧ declares tree = some (name, kind) ∧ tree.label.row = row
  | .refers owner _ _ => owner ≠ ""

variable {declares : Declares} {root child : Tree} {entry : Entry}

theorem Within.of_child (hchild : child ∈ root.children) (hentry : entry.Within declares child) :
    entry.Within declares root := by
  cases entry with
  | declared name kind row =>
      obtain ⟨hname, tree, hcontains, hdeclares, hrow⟩ := hentry
      exact ⟨hname, tree, .of_child hchild hcontains, hdeclares, hrow⟩
  | refers owner names kind => exact hentry

/-- Entries that all refer from one owner. -/
def AllFrom (owner : String) (entries : List Entry) : Prop :=
  ∀ entry ∈ entries, ∃ names kind, entry = .refers owner names kind

theorem AllFrom.within {owner : String} {entries : List Entry} (hentries : AllFrom owner entries)
    (howner : owner ≠ "") : ∀ entry ∈ entries, entry.Within declares root := by
  intro entry hentry
  obtain ⟨names, kind, rfl⟩ := hentries entry hentry
  exact howner

section AllFrom

variable {owner : String} {entries more : List Entry}

theorem allFrom_nil : AllFrom owner [] := nofun

theorem allFrom_singleton (names : List String) (kind : EdgeKind) :
    AllFrom owner [.refers owner names kind] := by
  intro entry hentry
  exact ⟨names, kind, List.mem_singleton.mp hentry⟩

theorem AllFrom.append (hentries : AllFrom owner entries) (hmore : AllFrom owner more) :
    AllFrom owner (entries ++ more) := by
  intro entry hentry
  rcases List.mem_append.mp hentry with hentry | hentry
  · exact hentries entry hentry
  · exact hmore entry hentry

theorem allFrom_flatMap {items : List α} {expand : α → List Entry}
    (hexpand : ∀ item ∈ items, AllFrom owner (expand item)) :
    AllFrom owner (items.flatMap expand) := by
  intro entry hentry
  obtain ⟨item, hitem, hentry⟩ := List.mem_flatMap.mp hentry
  exact hexpand item hitem entry hentry

theorem allFrom_map (items : List α) (names : α → List String) (kind : EdgeKind) :
    AllFrom owner (items.map fun item => .refers owner (names item) kind) := by
  intro entry hentry
  obtain ⟨item, -, rfl⟩ := List.mem_map.mp hentry
  exact ⟨names item, kind, rfl⟩

theorem allFrom_references (rule : NameRule) (kind : EdgeKind) (expression : Option Tree) :
    AllFrom owner (references rule owner kind expression) :=
  allFrom_map expression.toList rule.namesIn kind

end AllFrom
end Entry

/-! ## Nodes and edges from entries -/

/-- A node for something that is declared within a tree, in the file of the tree. -/
def Node.IsDeclared (declares : Declares) (root : Tree) (file : String) (node : Node) : Prop :=
  node.name ≠ "" ∧ node.file = file ∧
    ∃ tree, root.Contains tree ∧ declares tree = some (node.name, node.kind) ∧
      (node.line : Int) = tree.label.row + 1

/-- What a node says is declared. -/
def Node.declaration (node : Node) : Declaration := ⟨node.name, node.kind, node.line⟩

theorem Edge.check_fields {owner target : String} (kind : EdgeKind) (howner : owner ≠ "")
    (htarget : target ≠ "") :
    check (.obj [("source", .str owner), ("target", .str target), ("kind", .str kind.name)]) =
      .ok ⟨owner, target, kind, howner, htarget⟩ := by
  rw [check]
  simp [ofJson, Field.object, Field.required, Field.extras, Field.chosen?, Json.lookup?, firsts,
    firstsUnseen]
  rw [Field.nonempty_str howner, Field.nonempty_str htarget, Field.edgeKind_str]
  rfl

theorem Node.check_fields {name : String} (kind : NodeKind) (file : String) {line : Nat}
    (hname : name ≠ "") (hline : 0 < line) :
    check (.obj [("name", .str name), ("kind", .str kind.name), ("file", .str file),
      ("line", .ofNat line)]) = .ok ⟨name, kind, file, line, hname, hline⟩ := by
  rw [check]
  exact congrArg (Checked.titled "GraphNode") (ofJson_toJson ⟨name, kind, file, line, hname, hline⟩)

namespace Builder

variable {declares : Declares} {root : Tree}

theorem addNode_eq (builder : Builder) {name : String} (kind : NodeKind) {row : Int}
    (hname : name ≠ "") (hrow : 0 ≤ row) :
    ∃ node, builder.addNode name kind.name row =
        .ok { builder with nodes := node :: builder.nodes } ∧
      node.name = name ∧ node.kind = kind ∧ node.file = builder.file ∧
        (node.line : Int) = row + 1 := by
  obtain ⟨line, rfl⟩ := Int.eq_ofNat_of_zero_le hrow
  refine ⟨⟨name, kind, builder.file, line + 1, hname, Nat.succ_pos line⟩, ?_, rfl, rfl, rfl, rfl⟩
  rw [addNode]
  exact congrArg _ (Node.check_fields kind builder.file hname (Nat.succ_pos line))

/-- References from a name are all accepted; names that are empty or built in are left out. -/
theorem addEdges_eq (builder : Builder) {owner : String} (howner : owner ≠ "")
    (names : List String) (kind : EdgeKind) :
    ∃ edges, builder.addEdges owner names kind.name = ({ builder with edges }, .ok ()) := by
  induction names generalizing builder with
  | nil => exact ⟨builder.edges, rfl⟩
  | cons name names ih =>
      rw [addEdges]
      cases hadmits : builder.admits name with
      | false => exact ih builder
      | true =>
          have hname : name ≠ "" := by
            rw [admits, Bool.and_eq_true] at hadmits
            exact of_decide_eq_true hadmits.1
          have hedge := Edge.check_fields kind howner hname
          obtain ⟨edges, hedges⟩ :=
            ih { builder with edges := ⟨owner, name, kind, howner, hname⟩ :: builder.edges }
          refine ⟨edges, ?_⟩
          rw [if_pos rfl, edge, hedge]
          exact hedges

/-- All nodes so far are for something that is declared within a tree. -/
def IsWithin (declares : Declares) (root : Tree) (builder : Builder) : Prop :=
  ∀ node ∈ builder.nodes, node.IsDeclared declares root builder.file

/-- What the nodes so far declare, in order. -/
def declarations (builder : Builder) : List Declaration := builder.build.nodes.map Node.declaration

variable {builder : Builder}

/-- One more entry is accepted, and there is one more node if it asks for one. -/
theorem add_of_within {entry : Entry} (hrows : root.HasRows) (hentry : entry.Within declares root)
    (hbuilder : builder.IsWithin declares root) :
    ∃ extended, builder.add entry = .ok extended ∧ extended.file = builder.file ∧
      extended.IsWithin declares root ∧
      extended.declarations = builder.declarations ++ entry.declaration?.toList := by
  cases entry with
  | declared name kind row =>
      obtain ⟨hname, tree, hcontains, hdeclares, rfl⟩ := hentry
      obtain ⟨node, hnode, rfl, rfl, hfile, hline⟩ :=
        addNode_eq builder kind hname (hrows tree hcontains)
      refine ⟨_, hnode, rfl, ?_, ?_⟩
      · intro other hother
        rcases List.mem_cons.mp hother with rfl | hother
        · exact ⟨hname, hfile, tree, hcontains, hdeclares, hline⟩
        · exact hbuilder other hother
      · rw [Entry.declaration?, ← hline]
        simp [declarations, build, Node.declaration]
  | refers owner names kind =>
      obtain ⟨edges, hedges⟩ := addEdges_eq builder hentry names kind
      refine ⟨{ builder with edges }, ?_, rfl, hbuilder, (List.append_nil _).symm⟩
      rw [add, hedges]

theorem addAll_of_within {entries : List Entry} (hrows : root.HasRows)
    (hentries : ∀ entry ∈ entries, entry.Within declares root)
    (hbuilder : builder.IsWithin declares root) :
    ∃ extended, builder.addAll entries = .ok extended ∧ extended.file = builder.file ∧
      extended.IsWithin declares root ∧
      extended.declarations = builder.declarations ++ entries.filterMap Entry.declaration? := by
  induction entries generalizing builder with
  | nil => exact ⟨builder, rfl, rfl, hbuilder, (List.append_nil _).symm⟩
  | cons entry entries ih =>
      obtain ⟨hentry, hrest⟩ := List.forall_mem_cons.mp hentries
      obtain ⟨middle, hmiddle, hfile, hwithin, hfirst⟩ := add_of_within hrows hentry hbuilder
      obtain ⟨extended, hextended, hfileToo, hwithinToo, hlater⟩ := ih hrest hwithin
      refine ⟨extended, ?_, hfileToo.trans hfile, hwithinToo, ?_⟩
      · rw [addAll, hmiddle]
        exact hextended
      · rw [hlater, hfirst, List.append_assoc, List.filterMap_cons]
        cases entry.declaration? <;> rfl

end Builder

/-! ## Walking -/

namespace Visit

/-- Whatever is read as a whole gives entries that are within it. -/
def IsWithin (declares : Declares) (visit : Visit) : Prop :=
  ∀ tree entries, visit tree = some entries → ∀ entry ∈ entries, entry.Within declares tree

variable {declares : Declares} {visit : Visit}

theorem within_of_mem_entries (hvisit : visit.IsWithin declares) (pending : List Tree) :
    ∀ entry ∈ visit.entries pending, ∃ tree ∈ pending, entry.Within declares tree := by
  intro entry hentry
  fun_induction visit.entries pending with
  | case1 => exact absurd hentry List.not_mem_nil
  | case2 tree rest own hown ih =>
      rcases List.mem_append.mp hentry with hentry | hentry
      · exact ⟨tree, List.mem_cons_self, hvisit tree own hown entry hentry⟩
      · obtain ⟨other, hother, hwithin⟩ := ih hentry
        exact ⟨other, List.mem_cons_of_mem tree hother, hwithin⟩
  | case3 tree rest hnone ih =>
      obtain ⟨other, hother, hwithin⟩ := ih hentry
      rcases List.mem_append.mp hother with hchild | hrest
      · exact ⟨tree, List.mem_cons_self, hwithin.of_child hchild⟩
      · exact ⟨other, List.mem_cons_of_mem tree hrest, hwithin⟩

theorem within_entries (hvisit : visit.IsWithin declares) (root : Tree) :
    ∀ entry ∈ visit.entries [root], entry.Within declares root := by
  intro entry hentry
  obtain ⟨tree, htree, hwithin⟩ := within_of_mem_entries hvisit [root] entry hentry
  rwa [List.mem_singleton.mp htree] at hwithin

end Visit

/-- A tree can be read: there is a fragment, its nodes are what is declared within the tree, and its
edges have ends. -/
def Extractor.Reads (extractor : Extractor) (declares : Declares) (root : Tree) (file : String) :
    Prop :=
  ∃ fragment, extractor.extract root file = .ok fragment ∧
    (∀ node ∈ fragment.nodes, node.IsDeclared declares root file) ∧
    ∀ edge ∈ fragment.edges, edge.source ≠ "" ∧ edge.target ≠ ""

/-- A tree is read into a builder that takes all its entries. -/
theorem Extractor.extract_of_isWithin {extractor : Extractor} {declares : Declares} {visit : Visit}
    {root : Tree} (hextractor : extractor.visit? = some visit) (hvisit : visit.IsWithin declares)
    (hrows : root.HasRows) (file : String) :
    ∃ builder : Builder, extractor.extract root file = .ok builder.build ∧ builder.file = file ∧
      builder.IsWithin declares root ∧
      builder.declarations = (visit.entriesOf root).filterMap Entry.declaration? := by
  have hempty : Builder.IsWithin declares root ⟨file, extractor.builtins, [], []⟩ := nofun
  obtain ⟨builder, hbuilder, hfile, hwithin, hdeclarations⟩ :=
    Builder.addAll_of_within hrows (Visit.within_entries hvisit root) hempty
  refine ⟨builder, ?_, hfile, hwithin, ?_⟩
  · rw [extract, hextractor]
    simp only [Visit.fragment, hbuilder]
    rfl
  · rw [hdeclarations, visit.entries_singleton]
    rfl

theorem Extractor.reads_of_isWithin {extractor : Extractor} {declares : Declares} {visit : Visit}
    {root : Tree} (hextractor : extractor.visit? = some visit) (hvisit : visit.IsWithin declares)
    (hrows : root.HasRows) (file : String) : extractor.Reads declares root file := by
  obtain ⟨builder, hextract, hfile, hwithin, -⟩ := extract_of_isWithin hextractor hvisit hrows file
  refine ⟨builder.build, hextract, ?_, ?_⟩
  · intro node hnode
    have hnode := hwithin node (List.mem_reverse.mp hnode)
    rwa [hfile] at hnode
  · intro edge _
    exact ⟨edge.source_ne, edge.target_ne⟩

end TypeAtlas
