import TypeAtlas.Proofs.Extraction.Fragments
import TypeAtlas.Proofs.Extraction.Nesting

/-!
# Where edges come from

Every edge of a file goes to a name that is not built in, and starts at a node of the same file.  There
are two exceptions from the latter: what a Swift extension says is said of the type that it extends, and
a Go method belongs to the type of its receiver; both types may be declared in another file
(`Extractor.attributes_edges`).

Edges are made of references, so this is a statement about the owners of references.  Where a
`DeclarationRule` says what is taken, an owner is the name of a declaration that is taken
(`DeclarationRule.NamesBelow`), which is then a node if it is of any kind.
-/

namespace TypeAtlas

open Syntax Entry

/-! ## What the walk comes to -/

namespace Visit

/-- The walk comes to a tree: nothing above it is read as a whole. -/
inductive Reaches (visit : Visit) : Tree → Tree → Prop where
  | self {tree : Tree} : Reaches visit tree tree
  | child {root child tree : Tree} (hroot : visit root = none) (hchild : child ∈ root.children)
      (htree : Reaches visit child tree) : Reaches visit root tree

variable {visit : Visit} {entry : Entry}

theorem mem_entriesBelow_iff {trees : List Tree} :
    entry ∈ visit.entriesBelow trees ↔ ∃ tree ∈ trees, entry ∈ visit.entriesOf tree := by
  induction trees with
  | nil => simp [entriesBelow]
  | cons tree trees ih => simp [entriesBelow, ih]

theorem exists_reaches_of_mem_entriesOf {root : Tree} (hentry : entry ∈ visit.entriesOf root) :
    ∃ tree own, visit.Reaches root tree ∧ visit tree = some own ∧ entry ∈ own := by
  rw [visit.entriesOf_eq] at hentry
  cases hroot : visit root with
  | some own =>
      rw [hroot] at hentry
      exact ⟨root, own, .self, hroot, hentry⟩
  | none =>
      rw [hroot] at hentry
      obtain ⟨child, hchild, hbelow⟩ := mem_entriesBelow_iff.mp hentry
      obtain ⟨tree, own, htree, hown, hmem⟩ := exists_reaches_of_mem_entriesOf hbelow
      exact ⟨tree, own, .child hroot hchild htree, hown, hmem⟩
termination_by root.size
decreasing_by exact Tree.size_lt_of_mem hchild

theorem Reaches.mem_entriesOf {root tree : Tree} {own : List Entry} (htree : visit.Reaches root tree)
    (hown : visit tree = some own) (hentry : entry ∈ own) : entry ∈ visit.entriesOf root := by
  induction htree with
  | self =>
      rw [visit.entriesOf_eq, hown]
      exact hentry
  | child hroot hchild _ ih =>
      rw [visit.entriesOf_eq, hroot]
      exact mem_entriesBelow_iff.mpr ⟨_, hchild, ih hown⟩

/-- **The entries of a file** are those of the trees that the walk comes to and that are read as a whole.
-/
theorem mem_entriesOf_iff {root : Tree} :
    entry ∈ visit.entriesOf root ↔
      ∃ tree own, visit.Reaches root tree ∧ visit tree = some own ∧ entry ∈ own :=
  ⟨exists_reaches_of_mem_entriesOf, fun ⟨_, _, htree, hown, hentry⟩ => htree.mem_entriesOf hown hentry⟩

end Visit

/-! ## Edges of entries -/

/-- The fragment of a file has edges to names that are not built in, and each starts at a node of the
fragment, or at another owner. -/
def Extractor.Attributes (extractor : Extractor) (isOwner : String → Prop) (root : Tree)
    (file : String) : Prop :=
  ∃ fragment, extractor.extract root file = .ok fragment ∧
    ∀ edge ∈ fragment.edges, edge.target ≠ "" ∧ edge.target ∉ extractor.builtins ∧
      (edge.source ∈ fragment.nodes.map Node.name ∨ isOwner edge.source)

/-- Each owner is declared by one of the entries, or is one of some others. -/
def Entry.Attributed (isOwner : String → Prop) (entries : List Entry) : Prop :=
  ∀ owner names kind, .refers owner names kind ∈ entries →
    (∃ declared row, .declared owner declared row ∈ entries) ∨ isOwner owner

namespace Fragment

variable {file : String} {builtins : List String} {entries : List Entry}

/-- An edge is made of one of the names that something refers to. -/
theorem exists_refers_of_mem_edges {edge : Edge} (hedge : edge ∈ (ofEntries file builtins entries).edges) :
    edge.target ∉ builtins ∧ ∃ names, .refers edge.source names edge.kind ∈ entries := by
  obtain ⟨entry, hentry, hedge⟩ := List.mem_flatMap.mp hedge
  cases entry with
  | declared name kind row => exact absurd hedge List.not_mem_nil
  | refers owner names kind =>
      obtain ⟨name, -, hname⟩ := List.mem_filterMap.mp hedge
      obtain ⟨rfl, rfl, rfl, hbuiltin⟩ := edge?_eq_some_iff.mp hname
      exact ⟨hbuiltin, names, hentry⟩

theorem mem_names_of_declared {name : String} {kind : NodeKind} {row : Int}
    (hentries : ∀ entry ∈ entries, entry.IsValid) (hname : .declared name kind row ∈ entries) :
    name ∈ (ofEntries file builtins entries).nodes.map Node.name := by
  have hvalid := hentries _ hname
  exact List.mem_map.mpr ⟨_, List.mem_filterMap.mpr ⟨_, hname, dif_pos hvalid⟩, rfl⟩

end Fragment

namespace Extractor

variable {extractor : Extractor} {visit : Visit} {root : Tree} {isOwner : String → Prop}

theorem attributes_of_attributed {declares : Declares} (hextractor : extractor.visit? = some visit)
    (hwithin : visit.IsWithin declares) (hrows : root.HasRows)
    (hentries : Attributed isOwner (visit.entriesOf root)) (file : String) :
    extractor.Attributes isOwner root file := by
  have hvalid := isValid_of_isWithin hwithin hrows
  refine ⟨_, extract_of_valid hextractor hvalid file, fun edge hedge => ?_⟩
  obtain ⟨hbuiltin, names, hrefers⟩ := Fragment.exists_refers_of_mem_edges hedge
  refine ⟨edge.target_ne, hbuiltin, ?_⟩
  rcases hentries _ _ _ hrefers with ⟨declared, row, hdeclared⟩ | howner
  · exact .inl (Fragment.mem_names_of_declared hvalid hdeclared)
  · exact .inr howner

theorem Attributes.mono {other : String → Prop} {file : String}
    (hattributes : extractor.Attributes isOwner root file) (hother : ∀ name, isOwner name → other name) :
    extractor.Attributes other root file := by
  obtain ⟨fragment, hextract, hedges⟩ := hattributes
  refine ⟨fragment, hextract, fun edge hedge => ?_⟩
  obtain ⟨htarget, hbuiltin, hsource⟩ := hedges edge hedge
  exact ⟨htarget, hbuiltin, hsource.imp_right (hother _)⟩

end Extractor

/-! ## Owners that are taken -/

namespace DeclarationRule

variable {rule : DeclarationRule} {part : Part} {root tree child : Tree} {name : String}

/-- In a tree with some part, a declaration with some name is taken. -/
def NamesBelow (rule : DeclarationRule) (part : Part) (tree : Tree) (name : String) : Prop :=
  ∃ position below, rule.partBelow part tree position = .taken ∧ tree.at? position = some below ∧
    rule.name? below = some name

theorem namesBelow_of_name? (hname : rule.name? tree = some name) :
    rule.NamesBelow (rule.partOfDeclaration tree) tree name := by
  refine ⟨[], tree, ?_, rfl, hname⟩
  rw [partBelow, partOfDeclaration, hname]
  rfl

theorem NamesBelow.of_child {index : Nat} (hchild : tree.children[index]? = some child)
    (hnames : rule.NamesBelow (rule.childPart part tree index child) child name) :
    rule.NamesBelow part tree name := by
  obtain ⟨position, below, hpart, hbelow, hname⟩ := hnames
  refine ⟨index :: position, below, ?_, ?_, hname⟩
  · rw [partBelow, hchild]
    exact hpart
  · rw [Tree.at?_cons, hchild]
    exact hbelow

theorem NamesBelow.outside (hchild : child ∈ tree.children)
    (hnames : rule.NamesBelow (rule.outerPart child) child name) :
    rule.NamesBelow .outside tree name := by
  obtain ⟨index, hindex⟩ := List.mem_iff_getElem?.mp hchild
  exact .of_child hindex hnames

theorem NamesBelow.members (hchild : child ∈ tree.children)
    (hnames : rule.NamesBelow (rule.memberPart child) child name) :
    rule.NamesBelow .members tree name := by
  obtain ⟨index, hindex⟩ := List.mem_iff_getElem?.mp hchild
  exact .of_child hindex hnames

theorem NamesBelow.body {body : Tree} (hbody : tree.field? "body" = some body)
    (hnames : rule.NamesBelow .members body name) : rule.NamesBelow .taken tree name := by
  obtain ⟨hunder, index, hlt, rfl, hfirst⟩ := List.find?_eq_some_iff_getElem.mp hbody
  have hindex : tree.children.findIdx? (Tree.isUnder "body") = some index := by
    refine List.findIdx?_eq_some_iff_getElem.mpr ⟨hlt, hunder, fun earlier hearlier => ?_⟩
    simpa using hfirst earlier hearlier
  refine .of_child (List.getElem?_eq_getElem hlt) ?_
  rwa [childPart, if_pos hindex]

/-- What is declared in a file but of no kind has a name that the file has no node for. -/
def NamesOnly (rule : DeclarationRule) (root : Tree) (name : String) : Prop :=
  ∃ position tree, rule.Taken root position ∧ root.at? position = some tree ∧
    rule.name? tree = some name ∧ rule.kind? tree = none

/-- A declaration that is taken is one of the declarations in the file, unless it is of no kind. -/
theorem mem_declarationsIn_or_namesOnly (hnames : rule.NamesBelow (rule.outerPart root) root name) :
    (∃ kind line, ⟨name, kind, line⟩ ∈ rule.declarationsIn root) ∨ rule.NamesOnly root name := by
  obtain ⟨position, tree, hpart, htree, hname⟩ := hnames
  have htaken : rule.Taken root position := partAt_eq_taken_iff.mp hpart
  cases hkind : rule.kind? tree with
  | none => exact .inr ⟨position, tree, htaken, htree, hname, hkind⟩
  | some kind =>
      refine .inl ⟨kind, tree.startLine, ?_⟩
      refine List.mem_filterMap.mpr ⟨position, mem_takenIn_iff.mpr htaken, ?_⟩
      rw [htree, Option.bind_some, declaration?, hname, Option.bind_some, hkind]
      rfl

end DeclarationRule

namespace Visit

/-- Whatever is read as a whole refers from names of declarations that are taken in it. -/
def RefersFrom (rule : DeclarationRule) (visit : Visit) : Prop :=
  ∀ tree entries, visit tree = some entries → ∀ owner names kind,
    .refers owner names kind ∈ entries → rule.NamesBelow (rule.partOfDeclaration tree) tree owner

variable {rule : DeclarationRule} {visit : Visit}

/-- What is taken in a declaration that the walk comes to is taken in the file. -/
theorem Reaches.namesBelow {root tree : Tree} {name : String} (hruled : visit.IsRuledBy rule)
    (htree : visit.Reaches root tree) (hnames : rule.NamesBelow (rule.outerPart tree) tree name) :
    rule.NamesBelow (rule.outerPart root) root name := by
  induction htree with
  | self => exact hnames
  | @child root child tree hroot hchild _ ih =>
      have hsome := hruled.isSome_visit root
      rw [hroot] at hsome
      rw [DeclarationRule.outerPart, ← hsome]
      exact .outside hchild (ih hnames)

theorem attributed_entriesOf (hruled : visit.IsRuledBy rule) (hvisit : visit.RefersFrom rule)
    (root : Tree) : Attributed (rule.NamesOnly root) (visit.entriesOf root) := by
  intro owner names kind hentry
  obtain ⟨tree, own, htree, hown, hmem⟩ := mem_entriesOf_iff.mp hentry
  have hsome := hruled.isSome_visit tree
  rw [hown] at hsome
  have hnames : rule.NamesBelow (rule.outerPart tree) tree owner := by
    rw [DeclarationRule.outerPart, ← hsome]
    exact hvisit tree own hown owner names kind hmem
  replace hnames := htree.namesBelow hruled hnames
  refine (DeclarationRule.mem_declarationsIn_or_namesOnly hnames).imp_left ?_
  rintro ⟨declared, line, hdeclared⟩
  rw [rule.declarationsIn_eq, ← declarations_entriesOf hruled root] at hdeclared
  obtain ⟨entry, hlisted, heq⟩ := List.mem_filterMap.mp hdeclared
  cases entry with
  | declared name declared row =>
      obtain ⟨rfl, rfl, -⟩ := Declaration.mk.inj (Option.some.inj heq)
      exact ⟨declared, row, hlisted⟩
  | refers _ _ _ => cases heq

end Visit

theorem DeclarationRule.Taken.isDeclaration_or_isNested {rule : DeclarationRule} {root tree : Tree}
    {position : List Nat} (htaken : rule.Taken root position) (htree : root.at? position = some tree) :
    rule.isDeclaration tree = true ∨ rule.isNested tree = true := by
  cases htaken with
  | outermost hat hdeclaration =>
      obtain rfl := Option.some.inj (hat.symm.trans htree)
      exact .inl hdeclaration
  | member _ _ hat _ hnested =>
      obtain rfl := Option.some.inj (hat.symm.trans htree)
      exact .inr hnested

/-- If whatever counts as a declaration is of a kind, then there is a node for all that is taken. -/
theorem DeclarationRule.not_namesOnly {rule : DeclarationRule}
    (hkind : ∀ tree, rule.isDeclaration tree = true ∨ rule.isNested tree = true →
      (rule.kind? tree).isSome = true) (root : Tree) (name : String) :
    ¬ rule.NamesOnly root name := by
  rintro ⟨position, tree, htaken, htree, -, hnone⟩
  have hsome := hkind tree (htaken.isDeclaration_or_isNested htree)
  rw [hnone] at hsome
  exact Bool.false_ne_true hsome

/-! ## Nested declarations -/

/-- Entries whose references are all from one owner. -/
def Entry.OwnedBy (name : String) (entries : List Entry) : Prop :=
  ∀ owner names kind, .refers owner names kind ∈ entries → owner = name

theorem Entry.AllFrom.ownedBy {name : String} {entries : List Entry} (hentries : AllFrom name entries) :
    OwnedBy name entries := by
  intro owner names kind hentry
  obtain ⟨_, _, heq⟩ := hentries _ hentry
  exact (Entry.refers.inj heq).1

/-- What is declared has no owner. -/
theorem Entry.OwnedBy.declared_cons {name other : String} {kind : NodeKind} {row : Int}
    {entries : List Entry} (hentries : OwnedBy name entries) :
    OwnedBy name (.declared other kind row :: entries) := by
  intro owner names kind hentry
  rcases List.mem_cons.mp hentry with heq | hentry
  · cases heq
  · exact hentries owner names kind hentry

/-- Headings and members refer from the declaration that they belong to. -/
structure NestedReading.IsOwned (reading : NestedReading) : Prop where
  heading : ∀ name tree, OwnedBy name (reading.heading name tree)
  member : ∀ name tree, OwnedBy name (reading.member name tree)

namespace NestedReading

variable {reading : NestedReading} {owner : String} {names : List String} {kind : EdgeKind}

mutual

theorem namesBelow_of_mem_declaration (hreading : reading.IsOwned) (tree : Tree)
    (hentry : .refers owner names kind ∈ reading.declaration tree) :
    reading.rule.NamesBelow (reading.rule.partOfDeclaration tree) tree owner := by
  rw [reading.declaration_eq] at hentry
  obtain ⟨name, hname, hentry⟩ := List.mem_flatMap.mp hentry
  have hname : reading.rule.name? tree = some name := Option.mem_toList.mp hname
  rcases List.mem_append.mp hentry with hheading | hbody
  · obtain rfl := hreading.heading name tree _ _ _ hheading
    exact DeclarationRule.namesBelow_of_name? hname
  · obtain ⟨body, hbody, hentry⟩ := List.mem_flatMap.mp hbody
    have hbody : tree.field? "body" = some body := Option.mem_toList.mp hbody
    rcases namesBelow_of_mem_members hreading name body hentry with rfl | hnames
    · exact DeclarationRule.namesBelow_of_name? hname
    · rw [DeclarationRule.partOfDeclaration, hname]
      exact .body hbody hnames
termination_by tree.size
decreasing_by exact Tree.size_lt_of_mem (List.mem_of_find?_eq_some hbody)

/-- A member refers from the declaration that it is a member of, or lies in one of its own. -/
theorem namesBelow_of_mem_members (hreading : reading.IsOwned) (holder : String) (tree : Tree)
    (hentry : .refers owner names kind ∈ reading.members holder tree) :
    owner = holder ∨ reading.rule.NamesBelow .members tree owner := by
  rw [reading.members_eq] at hentry
  obtain ⟨child, hmem, hentry⟩ := List.mem_flatMap.mp hentry
  obtain ⟨hchild, hnamed⟩ := List.mem_filter.mp hmem
  have hnamed : (!child.isNamed) = false := by rw [hnamed]; rfl
  split at hentry
  case isTrue hnested =>
    refine .inr (.members hchild ?_)
    rw [DeclarationRule.memberPart, hnamed, if_neg Bool.false_ne_true, if_pos hnested]
    exact namesBelow_of_mem_declaration hreading child hentry
  case isFalse hnested =>
  split at hentry
  case isTrue hholds =>
    refine (namesBelow_of_mem_members hreading holder child hentry).imp_right fun hnames => ?_
    refine .members hchild ?_
    rwa [DeclarationRule.memberPart, hnamed, if_neg Bool.false_ne_true, if_neg hnested,
      if_pos hholds]
  case isFalse => exact .inl (hreading.member holder child _ _ _ hentry)
termination_by tree.size
decreasing_by all_goals exact Tree.size_lt_of_mem hchild

end

theorem refersFrom_visit (hreading : reading.IsOwned) : reading.visit.RefersFrom reading.rule := by
  intro tree entries hentries owner names kind hentry
  rw [reading.visit_eq] at hentries
  split at hentries
  case isTrue =>
    obtain rfl := Option.some.inj hentries
    exact namesBelow_of_mem_declaration hreading tree hentry
  case isFalse => cases hentries

end NestedReading

/-! ## TypeScript and Java -/

namespace TypeScript

theorem refersFrom_visit : visit.RefersFrom declarationRule := by
  intro tree entries hentries owner names kind hentry
  obtain ⟨declared, -, hread⟩ := isReadAs_of_visit hentries
  rw [IsReadAs] at hread
  cases hname : declaredName? tree with
  | none =>
      rw [hname] at hread
      rw [hread] at hentry
      exact absurd hentry List.not_mem_nil
  | some name =>
      rw [hname] at hread
      obtain ⟨references, rfl, hreferences⟩ := hread
      obtain rfl := hreferences.ownedBy.declared_cons _ _ _ hentry
      exact DeclarationRule.namesBelow_of_name? hname

theorem isSome_kind? (tree : Tree)
    (htree : declarationRule.isDeclaration tree = true ∨ declarationRule.isNested tree = true) :
    (declarationRule.kind? tree).isSome = true := by
  rcases htree with htree | htree
  · exact htree
  · cases htree

end TypeScript

namespace Java

theorem isOwned_reading : reading.IsOwned where
  heading name tree := by
    obtain ⟨references, heq, hreferences⟩ := headingEntries_eq name (kindOf tree) tree
    rw [heading_reading, heq]
    exact hreferences.ownedBy.declared_cons
  member name tree := (allFrom_memberEntries tree).ownedBy

theorem isSome_kind? (tree : Tree)
    (htree : declarationRule.isDeclaration tree = true ∨ declarationRule.isNested tree = true) :
    (declarationRule.kind? tree).isSome = true := by
  rcases htree with htree | htree <;> exact htree

end Java

/-! ## Swift -/

namespace Swift

/-- An extension is a declaration of a type of its own, or one with the keyword. -/
def IsExtension (tree : Tree) : Prop :=
  tree.type = "extension_declaration" ∨
    tree.type = "class_declaration" ∧ keywordOf tree = "extension"

/-- A file extends a type. -/
def Extends (root : Tree) (name : String) : Prop :=
  ∃ position tree, declarationRule.Taken root position ∧ root.at? position = some tree ∧
    IsExtension tree ∧ nameOf? tree = some name

theorem isOwned_reading : reading.IsOwned where
  heading name tree := by
    intro owner names kind hentry
    rcases List.mem_append.mp hentry with hdeclared | hinherited
    · obtain ⟨_, -, heq⟩ := List.mem_map.mp hdeclared
      cases heq
    · exact (allFrom_map _ _ _).ownedBy _ _ _ hinherited
  member name tree := (allFrom_memberEntries tree).ownedBy

/-- What is of no kind is an extension. -/
theorem isExtension_of_kindOf?_eq_none {tree : Tree} (htree : isDeclaration tree = true)
    (hkind : kindOf? tree = none) : IsExtension tree := by
  rw [kindOf?] at hkind
  split at hkind
  case isTrue => cases hkind
  case isFalse hprotocol =>
  split at hkind
  case isTrue => cases hkind
  case isFalse henum =>
  split at hkind
  case isTrue hextension => exact .inl hextension
  case isFalse hextension =>
    have hclass : tree.type = "class_declaration" := by
      simpa [isDeclaration, nestedTypes, hprotocol, henum, hextension] using htree
    have hkeyword : keywordOf tree = "extension" := by
      rw [kindOfKeyword?] at hkind
      split at hkind
      case isTrue => cases hkind
      case isFalse =>
      split at hkind
      case isTrue hkeyword => exact hkeyword
      case isFalse => cases hkind
    exact .inr ⟨hclass, hkeyword⟩

theorem extends_of_namesOnly {root : Tree} {name : String}
    (hnames : declarationRule.NamesOnly root name) : Extends root name := by
  obtain ⟨position, tree, htaken, htree, hname, hkind⟩ := hnames
  have hdeclared : isDeclaration tree = true := by
    rcases htaken.isDeclaration_or_isNested htree with hdeclaration | hnested
    · exact hdeclaration
    · have hnested : nestedTypes.contains tree.type = true := hnested
      rw [isDeclaration, hnested, Bool.true_or]
  exact ⟨position, tree, htaken, htree, isExtension_of_kindOf?_eq_none hdeclared hkind, hname⟩

end Swift

/-! ## Go -/

namespace Go

/-- A file has a method of a type. -/
def HasMethodOf (root : Tree) (name : String) : Prop :=
  ∃ tree, visit.Reaches root tree ∧ tree.type = "method_declaration" ∧ receiver? tree = some name

variable {owner : String} {names : List String} {kind : EdgeKind}

/-- A declared type has all references to itself. -/
theorem declared_of_mem_specEntries {spec : Tree}
    (hentry : .refers owner names kind ∈ specEntries spec) :
    ∃ declared row, .declared owner declared row ∈ specEntries spec := by
  rw [specEntries] at hentry ⊢
  split at hentry
  case h_2 => exact absurd hentry List.not_mem_nil
  case h_1 name type hname htype =>
  split at hentry
  case isTrue hstruct =>
    obtain rfl := (allFrom_structEntries type).ownedBy.declared_cons _ _ _ hentry
    refine ⟨.classType, spec.label.row, ?_⟩
    rw [if_pos hstruct]
    exact List.mem_cons_self
  case isFalse hstruct =>
  split at hentry
  case isTrue hinterface =>
    have hmembers : AllFrom name (type.namedChildren.flatMap (memberEntries name)) :=
      allFrom_flatMap fun member _ => allFrom_memberEntries member
    obtain rfl := hmembers.ownedBy.declared_cons _ _ _ hentry
    refine ⟨.interfaceType, spec.label.row, ?_⟩
    rw [if_neg hstruct, if_pos hinterface]
    exact List.mem_cons_self
  case isFalse => exact absurd hentry List.not_mem_nil

/-- What is read as a whole refers from types that it declares, or from the receiver. -/
theorem attributed_of_visit {tree : Tree} {entries : List Entry}
    (hentries : visit tree = some entries) :
    Attributed (fun name => tree.type = "method_declaration" ∧ receiver? tree = some name) entries := by
  intro owner names kind hentry
  rw [visit] at hentries
  split at hentries
  case isTrue =>
    obtain rfl := Option.some.inj hentries
    obtain ⟨spec, hspec, hentry⟩ := List.mem_flatMap.mp hentry
    obtain ⟨declared, row, hdeclared⟩ := declared_of_mem_specEntries hentry
    exact .inl ⟨declared, row, List.mem_flatMap.mpr ⟨spec, hspec, hdeclared⟩⟩
  case isFalse =>
  split at hentries
  case isTrue hmethod =>
    obtain rfl := Option.some.inj hentries
    obtain ⟨receiver, hreceiver, hentry⟩ := List.mem_flatMap.mp hentry
    obtain rfl := (allFrom_signatureEntries tree).ownedBy _ _ _ hentry
    exact .inr ⟨hmethod, Option.mem_toList.mp hreceiver⟩
  case isFalse =>
  split at hentries
  case isTrue =>
    obtain rfl := Option.some.inj hentries
    exact absurd hentry List.not_mem_nil
  case isFalse => cases hentries

theorem attributed_entriesOf (root : Tree) :
    Attributed (HasMethodOf root) (visit.entriesOf root) := by
  intro owner names kind hentry
  obtain ⟨tree, own, htree, hown, hmem⟩ := Visit.mem_entriesOf_iff.mp hentry
  rcases attributed_of_visit hown owner names kind hmem with ⟨declared, row, hdeclared⟩ | hmethod
  · exact .inl ⟨declared, row, htree.mem_entriesOf hown hdeclared⟩
  · exact .inr ⟨tree, htree, hmethod.1, hmethod.2⟩

end Go

/-! ## All languages -/

/-- **Edges start at nodes**, or where it is known that they do not, and never go to a name that is
built in. -/
theorem Extractor.attributes_edges {root : Tree} (hrows : root.HasRows) (file : String) :
    typeScript.Attributes (fun _ => False) root file ∧ java.Attributes (fun _ => False) root file ∧
      swift.Attributes (Swift.Extends root) root file ∧
        go.Attributes (Go.HasMethodOf root) root file := by
  have htypeScript := Visit.attributed_entriesOf TypeScript.isRuledBy_visit
    TypeScript.refersFrom_visit root
  have hjava := Visit.attributed_entriesOf Java.isRuledBy_visit
    (NestedReading.refersFrom_visit Java.isOwned_reading) root
  have hswift := Visit.attributed_entriesOf Swift.isRuledBy_visit
    (NestedReading.refersFrom_visit Swift.isOwned_reading) root
  refine ⟨?_, ?_, ?_, ?_⟩
  · exact (attributes_of_attributed rfl TypeScript.isWithin_visit hrows htypeScript file).mono
      (DeclarationRule.not_namesOnly TypeScript.isSome_kind? root)
  · exact (attributes_of_attributed rfl Java.isWithin_visit hrows hjava file).mono
      (DeclarationRule.not_namesOnly Java.isSome_kind? root)
  · exact (attributes_of_attributed rfl Swift.isWithin_visit hrows hswift file).mono
      fun name => Swift.extends_of_namesOnly
  · exact attributes_of_attributed rfl Go.isWithin_visit hrows (Go.attributed_entriesOf root) file

/-- An extension of a class that is declared elsewhere. -/
def extensionSource : Tree :=
  .node { type := "source_file" }
    [.node { type := "extension_declaration" }
      [.node { type := "type_identifier", raw := .plain "Circle" } [],
        .node { type := "inheritance_specifier" }
          [.node { type := "type_identifier", raw := .plain "Shape" } []]]]

theorem Extractor.attributes_edges_extensionSource :
    extensionSource.HasRows ∧ Swift.Extends extensionSource "Circle" ∧
      typeScript.Attributes (fun _ => False) extensionSource "" ∧
        java.Attributes (fun _ => False) extensionSource "" ∧
          swift.Attributes (Swift.Extends extensionSource) extensionSource "" ∧
            go.Attributes (Go.HasMethodOf extensionSource) extensionSource "" := by
  have hrows : extensionSource.HasRows := by simp [extensionSource, Tree.hasRows_node]
  have htaken : Swift.declarationRule.Taken extensionSource [0] := by decide +kernel
  have hextends : Swift.Extends extensionSource "Circle" :=
    ⟨[0], _, htaken, rfl, .inl rfl, by decide +kernel⟩
  exact ⟨hrows, hextends, attributes_edges hrows ""⟩

end TypeAtlas
