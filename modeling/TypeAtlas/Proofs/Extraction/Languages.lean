import TypeAtlas.Proofs.Extraction.Validity

/-!
# What the languages read is valid

For each language, what counts as a declaration, and that the entries of a declaration are within it:
no name, and no owner, is ever empty (`isWithin_visit`).  The entries of members and headings only refer
from their owner, so this comes down to the places where an owner is found.  Where declarations are
nested, the induction follows the recursion through bodies.
-/

namespace TypeAtlas

open Syntax Entry

theorem declaredName?_ne {tree : Tree} {name : String} (hname : declaredName? tree = some name) :
    name ≠ "" := by
  rw [declaredName?] at hname
  cases hchild : tree.field? "name" with
  | none =>
      rw [hchild] at hname
      cases hname
  | some child =>
      simp only [hchild] at hname
      split at hname
      case isTrue => cases hname
      case isFalse htrim => rwa [Option.some.inj hname] at htrim

/-- What a tree declares if its type says which kind that is and its field says the name. -/
def Declares.byType (kindOf? : String → Option NodeKind) : Declares := fun tree =>
  (kindOf? tree.type).bind fun kind => (declaredName? tree).map fun name => (name, kind)

theorem Declares.byType_eq {kindOf? : String → Option NodeKind} {tree : Tree} {kind : NodeKind}
    {name : String} (hkind : kindOf? tree.type = some kind) (hname : declaredName? tree = some name) :
    byType kindOf? tree = some (name, kind) := by
  rw [byType, hkind, Option.bind_some, hname]
  rfl

/-- What is declared, with references of its own behind it. -/
theorem Entry.within_declared_cons {declares : Declares} {tree : Tree} {name : String}
    {kind : NodeKind} {entries : List Entry} (hname : name ≠ "")
    (hdeclares : declares tree = some (name, kind)) (hentries : AllFrom name entries) :
    ∀ entry ∈ .declared name kind tree.label.row :: entries, entry.Within declares tree := by
  intro entry hentry
  rcases List.mem_cons.mp hentry with rfl | hentry
  · exact ⟨hname, tree, .self, hdeclares, rfl⟩
  · exact hentries.within hname entry hentry

/-! ## TypeScript -/

namespace TypeScript

/-- The kind that a declaration of some type declares. -/
def kindOf? (type : String) : Option NodeKind :=
  if type = "class_declaration" ∨ type = "abstract_class_declaration" then some .classType
  else if type = "interface_declaration" then some .interfaceType
  else if type = "type_alias_declaration" then some .typeAlias
  else if type = "enum_declaration" then some .enumType
  else none

def declares : Declares := .byType kindOf?

variable {owner : String} {tree : Tree}

theorem allFrom_headingEntries (clause : Tree) : AllFrom owner (headingEntries owner clause) := by
  rw [headingEntries]
  split
  · exact allFrom_singleton _ _
  split
  · exact allFrom_singleton _ _
  split
  · exact allFrom_singleton _ _
  · exact allFrom_nil

theorem allFrom_heritageEntries (child : Tree) : AllFrom owner (heritageEntries owner child) := by
  rw [heritageEntries]
  split
  · exact allFrom_flatMap fun clause _ => allFrom_headingEntries clause
  · exact allFrom_headingEntries child

theorem allFrom_memberEntries (member : Tree) : AllFrom owner (memberEntries owner member) := by
  rw [memberEntries]
  split
  · exact allFrom_references _ _ _
  split
  · refine .append (allFrom_flatMap fun parameters _ => ?_) (allFrom_references _ _ _)
    exact allFrom_flatMap fun parameter _ => allFrom_references _ _ _
  · exact allFrom_nil

/-- What is read of a declaration: nothing if it has no name, else what is declared, with references
from it behind. -/
def IsReadAs (tree : Tree) (kind : NodeKind) (entries : List Entry) : Prop :=
  match declaredName? tree with
  | none => entries = []
  | some name => ∃ references,
      entries = .declared name kind tree.label.row :: references ∧ AllFrom name references

theorem isReadAs_classEntries (kind : NodeKind) (tree : Tree) :
    IsReadAs tree kind (classEntries kind tree) := by
  rw [IsReadAs, classEntries]
  cases declaredName? tree with
  | none => rfl
  | some name =>
      have hheading : AllFrom name (tree.children.flatMap (heritageEntries name)) :=
        allFrom_flatMap fun child _ => allFrom_heritageEntries child
      have hbody : AllFrom name ((tree.field? "body").toList.flatMap fun body =>
          body.namedChildren.flatMap (memberEntries name)) :=
        allFrom_flatMap fun body _ => allFrom_flatMap fun member _ => allFrom_memberEntries member
      exact ⟨_, rfl, hheading.append hbody⟩

theorem isReadAs_aliasEntries (tree : Tree) : IsReadAs tree .typeAlias (aliasEntries tree) := by
  rw [IsReadAs, aliasEntries]
  cases declaredName? tree with
  | none => rfl
  | some name => exact ⟨_, rfl, allFrom_references _ _ _⟩

theorem isReadAs_enumEntries (tree : Tree) : IsReadAs tree .enumType (enumEntries tree) := by
  rw [IsReadAs, enumEntries]
  cases declaredName? tree with
  | none => rfl
  | some name => exact ⟨[], rfl, allFrom_nil⟩

/-- What is read as a whole are the declarations, each by its kind. -/
theorem visit_eq (tree : Tree) :
    visit tree = (kindOf? tree.type).map fun kind =>
      match kind with
      | .typeAlias => aliasEntries tree
      | .enumType => enumEntries tree
      | kind => classEntries kind tree := by
  unfold visit kindOf?
  repeat' split
  all_goals rfl

theorem isReadAs_of_visit {entries : List Entry} (hentries : visit tree = some entries) :
    ∃ kind, kindOf? tree.type = some kind ∧ IsReadAs tree kind entries := by
  rw [visit_eq] at hentries
  obtain ⟨kind, hkind, rfl⟩ := Option.map_eq_some_iff.mp hentries
  refine ⟨kind, hkind, ?_⟩
  cases kind with
  | typeAlias => exact isReadAs_aliasEntries tree
  | enumType => exact isReadAs_enumEntries tree
  | _ => exact isReadAs_classEntries _ tree

theorem isWithin_visit : visit.IsWithin declares := by
  intro tree entries hentries
  obtain ⟨kind, hkind, hread⟩ := isReadAs_of_visit hentries
  rw [IsReadAs] at hread
  cases hname : declaredName? tree with
  | none =>
      rw [hname] at hread
      obtain rfl := hread
      exact nofun
  | some name =>
      rw [hname] at hread
      obtain ⟨references, rfl, hreferences⟩ := hread
      exact within_declared_cons (declaredName?_ne hname) (Declares.byType_eq hkind hname)
        hreferences

end TypeScript

/-! ## Java -/

namespace Java

def declares : Declares := .byType kindOf?

variable {owner : String}

theorem allFrom_parameterEntries (kind : EdgeKind) (holder : Tree) :
    AllFrom owner (parameterEntries owner kind holder) :=
  allFrom_map _ _ kind

theorem allFrom_memberEntries (member : Tree) : AllFrom owner (memberEntries owner member) := by
  rw [memberEntries]
  split
  · exact allFrom_references _ _ _
  split
  · exact (allFrom_references _ _ _).append (allFrom_parameterEntries _ _)
  · exact allFrom_nil

/-- A heading says what is declared, with references from it behind. -/
theorem headingEntries_eq (name : String) (kind : NodeKind) (tree : Tree) :
    ∃ references, headingEntries name kind tree = .declared name kind tree.label.row :: references ∧
      AllFrom name references := by
  refine ⟨_, rfl, .append (.append (.append ?_ ?_) ?_) ?_⟩
  · exact allFrom_references _ _ _
  · exact allFrom_references _ _ _
  · exact allFrom_references _ _ _
  · split
    · exact allFrom_parameterEntries _ _
    · exact allFrom_nil

theorem within_headingEntries {tree : Tree} {kind : NodeKind} {name : String}
    (hkind : kindOf? tree.type = some kind) (hname : declaredName? tree = some name) :
    ∀ entry ∈ headingEntries name kind tree, entry.Within declares tree := by
  obtain ⟨references, heq, hreferences⟩ := headingEntries_eq name kind tree
  rw [heq]
  exact within_declared_cons (declaredName?_ne hname) (Declares.byType_eq hkind hname) hreferences

mutual

theorem within_declarationEntries {kind : NodeKind} :
    ∀ tree, kindOf? tree.type = some kind →
      ∀ entry ∈ declarationEntries kind tree, entry.Within declares tree
  | .node label children, hkind => by
      intro entry hentry
      rw [declarationEntries] at hentry
      cases hname : declaredName? (.node label children) with
      | none =>
          rw [hname] at hentry
          exact absurd hentry List.not_mem_nil
      | some name =>
          rw [hname] at hentry
          rcases List.mem_append.mp hentry with hentry | hentry
          · exact within_headingEntries hkind hname entry hentry
          · obtain ⟨child, hchild, hwithin⟩ :=
              within_bodyEntries (declaredName?_ne hname) children entry hentry
            exact hwithin.of_child hchild

theorem within_bodyEntries {owner : String} (howner : owner ≠ "") :
    ∀ children, ∀ entry ∈ bodyEntries owner children,
      ∃ child ∈ children, entry.Within declares child
  | [], entry, hentry => absurd hentry List.not_mem_nil
  | child :: rest, entry, hentry => by
      rw [bodyEntries] at hentry
      split at hentry
      · exact ⟨child, List.mem_cons_self, within_membersEntries howner child entry hentry⟩
      · obtain ⟨other, hother, hwithin⟩ := within_bodyEntries howner rest entry hentry
        exact ⟨other, List.mem_cons_of_mem child hother, hwithin⟩

theorem within_membersEntries {owner : String} (howner : owner ≠ "") :
    ∀ tree, ∀ entry ∈ membersEntries owner tree, entry.Within declares tree
  | .node label children, entry, hentry => by
      rw [membersEntries] at hentry
      obtain ⟨child, hchild, hwithin⟩ := within_membersBelow howner children entry hentry
      exact hwithin.of_child hchild

theorem within_membersBelow {owner : String} (howner : owner ≠ "") :
    ∀ children, ∀ entry ∈ membersBelow owner children,
      ∃ child ∈ children, entry.Within declares child
  | [], entry, hentry => absurd hentry List.not_mem_nil
  | member :: rest, entry, hentry => by
      rw [membersBelow] at hentry
      rcases List.mem_append.mp hentry with hentry | hentry
      · refine ⟨member, List.mem_cons_self, ?_⟩
        split at hentry
        · exact absurd hentry List.not_mem_nil
        cases hkind : kindOf? member.type with
        | some kind =>
            rw [hkind] at hentry
            exact within_declarationEntries member hkind entry hentry
        | none =>
            simp only [hkind] at hentry
            split at hentry
            · exact within_membersEntries howner member entry hentry
            · exact (allFrom_memberEntries member).within howner entry hentry
      · obtain ⟨other, hother, hwithin⟩ := within_membersBelow howner rest entry hentry
        exact ⟨other, List.mem_cons_of_mem member hother, hwithin⟩

end

theorem isWithin_visit : visit.IsWithin declares := by
  intro tree entries hentries
  obtain ⟨kind, hkind, rfl⟩ := Option.map_eq_some_iff.mp hentries
  exact within_declarationEntries tree hkind

end Java

/-! ## Swift -/

namespace Swift

/-- Whether a tree is a declaration, perhaps an extension. -/
def isDeclaration (tree : Tree) : Bool :=
  nestedTypes.contains tree.type || tree.type = "extension_declaration"

/-- What a tree declares; an extension has no kind and declares nothing. -/
def declares : Declares := fun tree =>
  if isDeclaration tree then
    (nameOf? tree).bind fun name => (kindOf? tree).map fun kind => (name, kind)
  else none

variable {owner : String}

theorem nameOf?_ne {tree : Tree} {name : String} (hname : nameOf? tree = some name) : name ≠ "" := by
  rw [nameOf?] at hname
  cases hnode : nameNode? tree with
  | none =>
      rw [hnode] at hname
      cases hname
  | some node =>
      rw [hnode] at hname
      dsimp only at hname
      generalize (if node.type = "user_type" then (typeRule.namesIn node).headD ""
        else Text.trim node.text) = found at hname
      split at hname
      case isTrue => cases hname
      case isFalse hfound => rwa [← Option.some.inj hname]

theorem allFrom_memberEntries (member : Tree) : AllFrom owner (memberEntries owner member) := by
  rw [memberEntries]
  split
  · exact allFrom_map _ _ _
  split
  · refine .append (allFrom_flatMap fun parameter _ => ?_) (allFrom_references _ _ _)
    exact allFrom_references _ _ _
  · exact allFrom_nil

theorem within_headingEntries {tree : Tree} {name : String} (htree : isDeclaration tree = true)
    (hname : nameOf? tree = some name) :
    ∀ entry ∈ headingEntries name tree, entry.Within declares tree := by
  intro entry hentry
  rcases List.mem_append.mp hentry with hentry | hentry
  · obtain ⟨kind, hkind, rfl⟩ := List.mem_map.mp hentry
    rw [Option.mem_toList] at hkind
    refine ⟨nameOf?_ne hname, tree, .self, ?_, rfl⟩
    rw [declares, if_pos htree, hname, hkind]
    rfl
  · exact (allFrom_map _ _ _).within (nameOf?_ne hname) entry hentry

mutual

theorem within_declarationEntries :
    ∀ tree, isDeclaration tree = true →
      ∀ entry ∈ declarationEntries tree, entry.Within declares tree
  | .node label children, htree => by
      intro entry hentry
      rw [declarationEntries] at hentry
      cases hname : nameOf? (.node label children) with
      | none =>
          rw [hname] at hentry
          exact absurd hentry List.not_mem_nil
      | some name =>
          rw [hname] at hentry
          rcases List.mem_append.mp hentry with hentry | hentry
          · exact within_headingEntries htree hname entry hentry
          · obtain ⟨child, hchild, hwithin⟩ :=
              within_bodyEntries (nameOf?_ne hname) children entry hentry
            exact hwithin.of_child hchild

theorem within_bodyEntries {owner : String} (howner : owner ≠ "") :
    ∀ children, ∀ entry ∈ bodyEntries owner children,
      ∃ child ∈ children, entry.Within declares child
  | [], entry, hentry => absurd hentry List.not_mem_nil
  | child :: rest, entry, hentry => by
      rw [bodyEntries] at hentry
      split at hentry
      · exact ⟨child, List.mem_cons_self, within_membersEntries howner child entry hentry⟩
      · obtain ⟨other, hother, hwithin⟩ := within_bodyEntries howner rest entry hentry
        exact ⟨other, List.mem_cons_of_mem child hother, hwithin⟩

theorem within_membersEntries {owner : String} (howner : owner ≠ "") :
    ∀ tree, ∀ entry ∈ membersEntries owner tree, entry.Within declares tree
  | .node label children, entry, hentry => by
      rw [membersEntries] at hentry
      obtain ⟨child, hchild, hwithin⟩ := within_membersBelow howner children entry hentry
      exact hwithin.of_child hchild

theorem within_membersBelow {owner : String} (howner : owner ≠ "") :
    ∀ children, ∀ entry ∈ membersBelow owner children,
      ∃ child ∈ children, entry.Within declares child
  | [], entry, hentry => absurd hentry List.not_mem_nil
  | member :: rest, entry, hentry => by
      rw [membersBelow] at hentry
      rcases List.mem_append.mp hentry with hentry | hentry
      · refine ⟨member, List.mem_cons_self, ?_⟩
        split at hentry
        · exact absurd hentry List.not_mem_nil
        split at hentry
        case isTrue hnested =>
          have hdeclaration : isDeclaration member = true := by rw [isDeclaration, hnested]; rfl
          exact within_declarationEntries member hdeclaration entry hentry
        case isFalse => exact (allFrom_memberEntries member).within howner entry hentry
      · obtain ⟨other, hother, hwithin⟩ := within_membersBelow howner rest entry hentry
        exact ⟨other, List.mem_cons_of_mem member hother, hwithin⟩

end

theorem isWithin_visit : visit.IsWithin declares := by
  intro tree entries hentries
  rw [visit] at hentries
  split at hentries
  case isTrue htree =>
    have hdeclaration : isDeclaration tree = true := by
      rw [isDeclaration, Bool.or_eq_true]
      exact htree.imp_right decide_eq_true
    obtain rfl := Option.some.inj hentries
    exact within_declarationEntries tree hdeclaration
  case isFalse => cases hentries

end Swift

/-! ## Go -/

namespace Go

/-- The kind that a type of some node type gives to what is declared as it. -/
def kindOf? (type : String) : Option NodeKind :=
  if type = "struct_type" then some .classType
  else if type = "interface_type" then some .interfaceType
  else none

/-- What a tree declares: a name for a structure or an interface. -/
def declares : Declares := fun tree =>
  if tree.type = "type_spec" then
    (declaredName? tree).bind fun name =>
      (tree.field? "type").bind fun type => (kindOf? type.type).map fun kind => (name, kind)
  else none

variable {owner : String}

theorem allFrom_signatureEntries (method : Tree) : AllFrom owner (signatureEntries owner method) := by
  refine .append (allFrom_flatMap fun parameters _ => ?_) (allFrom_references _ _ _)
  exact allFrom_flatMap fun parameter _ => allFrom_references _ _ _

theorem allFrom_fieldEntries (field : Tree) : AllFrom owner (fieldEntries owner field) := by
  rw [fieldEntries]
  split
  · exact allFrom_references _ _ _
  · exact allFrom_map _ _ _

theorem allFrom_structEntries (struct : Tree) : AllFrom owner (structEntries owner struct) :=
  allFrom_flatMap fun _ _ => allFrom_flatMap fun field _ => allFrom_fieldEntries field

theorem allFrom_memberEntries (member : Tree) : AllFrom owner (memberEntries owner member) := by
  rw [memberEntries]
  split
  · exact allFrom_signatureEntries member
  split
  · exact allFrom_singleton _ _
  · exact allFrom_nil

theorem within_specEntries {spec : Tree} (hspec : spec.type = "type_spec") :
    ∀ entry ∈ specEntries spec, entry.Within declares spec := by
  rw [specEntries]
  split
  case h_1 name type hname htype =>
    have hdeclares : declares spec = (kindOf? type.type).map fun kind => (name, kind) := by
      rw [declares, if_pos hspec, hname, htype]
      rfl
    rw [kindOf?] at hdeclares
    split
    case isTrue hstruct =>
      rw [if_pos hstruct] at hdeclares
      exact within_declared_cons (declaredName?_ne hname) hdeclares (allFrom_structEntries type)
    case isFalse hstruct =>
      rw [if_neg hstruct] at hdeclares
      split
      case isTrue hinterface =>
        rw [if_pos hinterface] at hdeclares
        exact within_declared_cons (declaredName?_ne hname) hdeclares
          (allFrom_flatMap fun member _ => allFrom_memberEntries member)
      case isFalse => exact nofun
  case h_2 => exact nofun

theorem receiver?_ne {method : Tree} (howner : receiver? method = some owner) : owner ≠ "" := by
  rw [receiver?] at howner
  split at howner
  · cases howner
  split at howner
  · cases howner
  split at howner
  case isTrue => cases howner
  case isFalse hname => rwa [← Option.some.inj howner]

theorem isWithin_visit : visit.IsWithin declares := by
  intro tree entries hentries entry hentry
  rw [visit] at hentries
  split at hentries
  · obtain rfl := Option.some.inj hentries
    obtain ⟨spec, hspec, hentry⟩ := List.mem_flatMap.mp hentry
    obtain ⟨hchild, htype⟩ := List.mem_filter.mp hspec
    have htype : spec.type = "type_spec" := by simpa using htype
    exact (within_specEntries htype entry hentry).of_child hchild
  split at hentries
  · obtain rfl := Option.some.inj hentries
    obtain ⟨owner, howner, hentry⟩ := List.mem_flatMap.mp hentry
    rw [Option.mem_toList] at howner
    exact (allFrom_signatureEntries tree).within (receiver?_ne howner) entry hentry
  split at hentries
  · obtain rfl := Option.some.inj hentries
    exact absurd hentry List.not_mem_nil
  · cases hentries

end Go

end TypeAtlas
