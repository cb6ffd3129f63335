import TypeAtlas.Proofs.Extraction.Declarations
import TypeAtlas.Proofs.Extraction.Languages

/-!
# The nodes of a file

Each language has a `DeclarationRule`, and the nodes of a file are the declarations that the rule says
are taken, in pre-order (`Extractor.lists_declarations`).

Reading gives entries, and only some of them become nodes: `Entry.declaration?`.  So the walk and the
recursion through bodies are compared with `declarationsBelow`, part by part: the walk with what is
outside of declarations, and the functions for declarations, bodies and members with what they are
called on.
-/

namespace TypeAtlas

open Syntax Entry

/-! ## Entries that become nodes -/

/-- References ask for no nodes. -/
theorem Entry.AllFrom.filterMap_declaration? {owner : String} {entries : List Entry}
    (hentries : AllFrom owner entries) : entries.filterMap declaration? = [] := by
  rw [List.filterMap_eq_nil_iff]
  intro entry hentry
  obtain ⟨names, kind, rfl⟩ := hentries entry hentry
  rfl

/-- What is declared, with references behind it, asks for one node. -/
theorem Entry.filterMap_declaration?_cons {owner name : String} {kind : NodeKind} {tree : Tree}
    {references : List Entry} (hreferences : AllFrom owner references) :
    (declared name kind tree.label.row :: references).filterMap declaration? =
      [⟨name, kind, tree.startLine⟩] := by
  rw [List.filterMap_cons, hreferences.filterMap_declaration?]
  rfl

/-! ## The walk -/

namespace Visit

/-- What is read as a whole are the declarations of a rule, each with what is taken in it. -/
structure IsRuledBy (rule : DeclarationRule) (visit : Visit) : Prop where
  isSome_visit : ∀ tree, (visit tree).isSome = rule.isDeclaration tree
  own : ∀ tree entries, visit tree = some entries →
    entries.filterMap declaration? = rule.declarationsBelow (rule.partOfDeclaration tree) tree

variable {rule : DeclarationRule} {visit : Visit}

mutual

theorem declarations_entriesOf (hvisit : visit.IsRuledBy rule) :
    ∀ tree, (visit.entriesOf tree).filterMap declaration? =
      rule.declarationsBelow (rule.outerPart tree) tree
  | .node label children => by
      have hsome := hvisit.isSome_visit (.node label children)
      rw [entriesOf, DeclarationRule.outerPart, ← hsome]
      cases hown : visit (.node label children) with
      | some own => exact hvisit.own _ own hown
      | none =>
          rw [Option.isSome_none, if_neg Bool.false_ne_true, rule.declarationsBelow_outside]
          exact declarations_entriesBelow hvisit children

theorem declarations_entriesBelow (hvisit : visit.IsRuledBy rule) :
    ∀ trees, (visit.entriesBelow trees).filterMap declaration? =
      trees.flatMap fun tree => rule.declarationsBelow (rule.outerPart tree) tree
  | [] => rfl
  | tree :: rest => by
      have hfirst := declarations_entriesOf hvisit tree
      have hrest := declarations_entriesBelow hvisit rest
      rw [entriesBelow, List.filterMap_append, List.flatMap_cons, hfirst, hrest]

end

end Visit

/-- The nodes of a file are the declarations at the positions that a rule says are taken: at each of
them once, and in the order of positions, in which a node comes before those below it and before those
to the right. -/
structure Extractor.Lists (extractor : Extractor) (rule : DeclarationRule) (root : Tree)
    (file : String) : Prop where
  taken : ∀ position, position ∈ rule.takenIn root ↔ rule.Taken root position
  sorted : (rule.takenIn root).Pairwise (· < ·)
  nodes : ∃ fragment, extractor.extract root file = .ok fragment ∧
    fragment.nodes.map Node.declaration = rule.declarationsIn root ∧
    ∀ node ∈ fragment.nodes, node.file = file

theorem Extractor.lists_of_isRuledBy {extractor : Extractor} {declares : Declares}
    {rule : DeclarationRule} {visit : Visit} {root : Tree}
    (hextractor : extractor.visit? = some visit) (hwithin : visit.IsWithin declares)
    (hvisit : visit.IsRuledBy rule) (hrows : root.HasRows) (file : String) :
    extractor.Lists rule root file := by
  obtain ⟨builder, hextract, hfile, hbuilder, hdeclarations⟩ :=
    extract_of_isWithin hextractor hwithin hrows file
  refine ⟨fun _ => DeclarationRule.mem_takenIn_iff, rule.pairwise_takenIn root, builder.build,
    hextract, ?_, ?_⟩
  · calc
      builder.declarations = (visit.entriesOf root).filterMap declaration? := hdeclarations
      _ = rule.declarationsBelow (rule.outerPart root) root :=
        Visit.declarations_entriesOf hvisit root
      _ = rule.declarationsIn root := (rule.declarationsIn_eq root).symm
  · intro node hnode
    obtain ⟨-, hnodeFile, -⟩ := hbuilder node (List.mem_reverse.mp hnode)
    exact hnodeFile.trans hfile

/-! ## TypeScript -/

namespace TypeScript

/-- Only outermost declarations are taken. -/
def declarationRule : DeclarationRule where
  isDeclaration tree := (kindOf? tree.type).isSome
  isNested _ := false
  holdsMembers _ := false
  name? := declaredName?
  kind? tree := kindOf? tree.type
  not_isNested _ _ := rfl

theorem declarationsBelow_members (tree : Tree) :
    declarationRule.declarationsBelow .members tree = [] := by
  rw [DeclarationRule.declarationsBelow_members, List.flatMap_eq_nil_iff]
  intro child _
  have hskipped : declarationRule.memberPart child = .skipped := by
    rw [DeclarationRule.memberPart]
    split <;> rfl
  rw [hskipped, DeclarationRule.declarationsBelow_skipped]

theorem isRuledBy_visit : visit.IsRuledBy declarationRule where
  isSome_visit tree := by
    rw [visit_eq, Option.isSome_map]
    rfl
  own tree entries hentries := by
    obtain ⟨kind, hkind, hread⟩ := isReadAs_of_visit hentries
    rw [IsReadAs] at hread
    cases hname : declaredName? tree with
    | none =>
        rw [hname] at hread
        rw [declarationRule.declarationsBelow_of_name?_eq_none hname, hread]
        rfl
    | some name =>
        rw [hname] at hread
        obtain ⟨references, rfl, hreferences⟩ := hread
        have hbody : (tree.field? "body").toList.flatMap
            (declarationRule.declarationsBelow .members) = [] := by
          rw [List.flatMap_eq_nil_iff]
          exact fun body _ => declarationsBelow_members body
        have hkind : declarationRule.kind? tree = some kind := hkind
        rw [filterMap_declaration?_cons hreferences,
          declarationRule.declarationsBelow_of_name?_eq_some hname, hkind, hbody]
        rfl

end TypeScript

/-! ## Java -/

namespace Java

/-- The members that follow the constants of an enumeration are in a node of their own. -/
def declarationRule : DeclarationRule where
  isDeclaration tree := (kindOf? tree.type).isSome
  isNested tree := (kindOf? tree.type).isSome
  holdsMembers tree := tree.type = "enum_body_declarations"
  name? := declaredName?
  kind? tree := kindOf? tree.type
  not_isNested tree hmembers := by
    rw [of_decide_eq_true hmembers]
    rfl

mutual

theorem declarations_declarationEntries {kind : NodeKind} :
    ∀ tree, kindOf? tree.type = some kind →
      (declarationEntries kind tree).filterMap declaration? =
        declarationRule.declarationsBelow (declarationRule.partOfDeclaration tree) tree
  | .node label children, hkind => by
      rw [declarationEntries]
      cases hname : declaredName? (.node label children) with
      | none => exact (declarationRule.declarationsBelow_of_name?_eq_none hname).symm
      | some name =>
          obtain ⟨references, hheading, hreferences⟩ :=
            headingEntries_eq name kind (.node label children)
          have hbody := declarations_bodyEntries name children
          have hkind : declarationRule.kind? (.node label children) = some kind := hkind
          simp only [List.filterMap_append]
          rw [hheading, filterMap_declaration?_cons hreferences, hbody,
            declarationRule.declarationsBelow_of_name?_eq_some hname, hkind]
          rfl

theorem declarations_bodyEntries (owner : String) :
    ∀ children, (bodyEntries owner children).filterMap declaration? =
      (children.find? (Tree.isUnder "body")).toList.flatMap
        (declarationRule.declarationsBelow .members)
  | [] => rfl
  | child :: rest => by
      rw [bodyEntries, List.find?_cons]
      cases child.isUnder "body" with
      | true =>
          have hmembers := declarations_membersEntries owner child
          simpa using hmembers
      | false => exact declarations_bodyEntries owner rest

theorem declarations_membersEntries (owner : String) :
    ∀ tree, (membersEntries owner tree).filterMap declaration? =
      declarationRule.declarationsBelow .members tree
  | .node label children => by
      rw [membersEntries, DeclarationRule.declarationsBelow_members]
      exact declarations_membersBelow owner children

theorem declarations_membersBelow (owner : String) :
    ∀ children, (membersBelow owner children).filterMap declaration? =
      children.flatMap fun child =>
        declarationRule.declarationsBelow (declarationRule.memberPart child) child
  | [] => rfl
  | member :: rest => by
      have hrest := declarations_membersBelow owner rest
      rw [membersBelow, List.filterMap_append, List.flatMap_cons, hrest]
      congr 1
      rw [DeclarationRule.memberPart]
      split
      case isTrue => exact (declarationRule.declarationsBelow_skipped member).symm
      have hnested : declarationRule.isNested member = (kindOf? member.type).isSome := rfl
      rw [hnested]
      cases hkind : kindOf? member.type with
      | some kind => exact declarations_declarationEntries member hkind
      | none =>
          have hholds : declarationRule.holdsMembers member =
              decide (member.type = "enum_body_declarations") := rfl
          simp only [hholds, decide_eq_true_eq, Option.isSome_none, if_neg Bool.false_ne_true]
          split
          case isTrue => exact declarations_membersEntries owner member
          case isFalse =>
            rw [(allFrom_memberEntries member).filterMap_declaration?,
              DeclarationRule.declarationsBelow_skipped]

end

theorem isRuledBy_visit : visit.IsRuledBy declarationRule where
  isSome_visit tree := Option.isSome_map
  own tree entries hentries := by
    obtain ⟨kind, hkind, rfl⟩ := Option.map_eq_some_iff.mp hentries
    exact declarations_declarationEntries tree hkind

end Java

/-! ## Swift -/

namespace Swift

/-- Extensions are declarations only where there is none above. -/
def declarationRule : DeclarationRule where
  isDeclaration := isDeclaration
  isNested tree := nestedTypes.contains tree.type
  holdsMembers _ := false
  name? := nameOf?
  kind? := kindOf?
  not_isNested _ hmembers := absurd hmembers Bool.false_ne_true

theorem declarations_headingEntries (name : String) (tree : Tree) :
    (headingEntries name tree).filterMap declaration? =
      ((kindOf? tree).map fun kind => ⟨name, kind, tree.startLine⟩).toList := by
  have hreferences : AllFrom name ((tree.childrenOf inheritanceTypes).map fun child =>
      .refers name (typeRule.namesIn child)
        (if kindOf? tree = some .protocolType then .extension else .implementation)) :=
    allFrom_map _ _ _
  rw [headingEntries, List.filterMap_append, hreferences.filterMap_declaration?, List.append_nil]
  cases kindOf? tree <;> rfl

mutual

theorem declarations_declarationEntries :
    ∀ tree, (declarationEntries tree).filterMap declaration? =
      declarationRule.declarationsBelow (declarationRule.partOfDeclaration tree) tree
  | .node label children => by
      rw [declarationEntries]
      cases hname : nameOf? (.node label children) with
      | none => exact (declarationRule.declarationsBelow_of_name?_eq_none hname).symm
      | some name =>
          have hheading := declarations_headingEntries name (.node label children)
          have hbody := declarations_bodyEntries name children
          simp only [List.filterMap_append]
          rw [hheading, hbody, declarationRule.declarationsBelow_of_name?_eq_some hname]
          rfl

theorem declarations_bodyEntries (owner : String) :
    ∀ children, (bodyEntries owner children).filterMap declaration? =
      (children.find? (Tree.isUnder "body")).toList.flatMap
        (declarationRule.declarationsBelow .members)
  | [] => rfl
  | child :: rest => by
      rw [bodyEntries, List.find?_cons]
      cases child.isUnder "body" with
      | true =>
          have hmembers := declarations_membersEntries owner child
          simpa using hmembers
      | false => exact declarations_bodyEntries owner rest

theorem declarations_membersEntries (owner : String) :
    ∀ tree, (membersEntries owner tree).filterMap declaration? =
      declarationRule.declarationsBelow .members tree
  | .node label children => by
      rw [membersEntries, DeclarationRule.declarationsBelow_members]
      exact declarations_membersBelow owner children

theorem declarations_membersBelow (owner : String) :
    ∀ children, (membersBelow owner children).filterMap declaration? =
      children.flatMap fun child =>
        declarationRule.declarationsBelow (declarationRule.memberPart child) child
  | [] => rfl
  | member :: rest => by
      have hrest := declarations_membersBelow owner rest
      rw [membersBelow, List.filterMap_append, List.flatMap_cons, hrest]
      congr 1
      rw [DeclarationRule.memberPart]
      split
      case isTrue => exact (declarationRule.declarationsBelow_skipped member).symm
      have hnested : declarationRule.isNested member = nestedTypes.contains member.type := rfl
      rw [hnested]
      split
      case isTrue => exact declarations_declarationEntries member
      case isFalse =>
        rw [(allFrom_memberEntries member).filterMap_declaration?]
        exact (declarationRule.declarationsBelow_skipped member).symm

end

theorem isRuledBy_visit : visit.IsRuledBy declarationRule where
  isSome_visit tree := by
    have hdeclaration : declarationRule.isDeclaration tree =
        (nestedTypes.contains tree.type || tree.type = "extension_declaration") := rfl
    rw [visit, hdeclaration]
    split
    case isTrue htree =>
      rw [Option.isSome_some, eq_comm, Bool.or_eq_true]
      exact htree.imp_right decide_eq_true
    case isFalse htree =>
      rw [Option.isSome_none, eq_comm, Bool.eq_false_iff, ne_eq, Bool.or_eq_true]
      exact fun hdeclared => htree (hdeclared.imp_right of_decide_eq_true)
  own tree entries hentries := by
    rw [visit] at hentries
    split at hentries
    case isTrue =>
      obtain rfl := Option.some.inj hentries
      exact declarations_declarationEntries tree
    case isFalse => cases hentries

end Swift

/-! ## All of them -/

/-- **Exactly the declarations that are taken become nodes**, each once and in the order of the
source. -/
theorem Extractor.lists_declarations {root : Tree} (hrows : root.HasRows) (file : String) :
    typeScript.Lists TypeScript.declarationRule root file ∧
      java.Lists Java.declarationRule root file ∧ swift.Lists Swift.declarationRule root file :=
  ⟨lists_of_isRuledBy rfl TypeScript.isWithin_visit TypeScript.isRuledBy_visit hrows file,
    lists_of_isRuledBy rfl Java.isWithin_visit Java.isRuledBy_visit hrows file,
    lists_of_isRuledBy rfl Swift.isWithin_visit Swift.isRuledBy_visit hrows file⟩

/-- A class with a class in it, and with one that has no name; a second body does not count. -/
def nestedClasses : Tree :=
  .node { type := "program" }
    [.node { type := "class_declaration" }
      [.node { type := "identifier", fields := ["name"], raw := .plain "Outer" } [],
        .node { type := "class_body", fields := ["body"] }
          [.node { type := "class_declaration", row := 1 }
            [.node { type := "identifier", fields := ["name"], raw := .plain "Inner", row := 1 } []],
            .node { type := "class_declaration", row := 2 } []],
        .node { type := "class_body", fields := ["body"], row := 3 }
          [.node { type := "class_declaration", row := 4 }
            [.node { type := "identifier", fields := ["name"], raw := .plain "Other", row := 4 } []]]]]

theorem Extractor.lists_declarations_nestedClasses :
    nestedClasses.HasRows ∧ typeScript.Lists TypeScript.declarationRule nestedClasses "" ∧
      java.Lists Java.declarationRule nestedClasses "" ∧
        swift.Lists Swift.declarationRule nestedClasses "" := by
  have hrows : nestedClasses.HasRows := by simp [nestedClasses, Tree.hasRows_node]
  exact ⟨hrows, lists_declarations hrows ""⟩

example : Java.declarationRule.declarationsIn nestedClasses =
    [⟨"Outer", .classType, 1⟩, ⟨"Inner", .classType, 2⟩] := by decide +kernel

end TypeAtlas
