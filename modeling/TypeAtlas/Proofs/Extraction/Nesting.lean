import TypeAtlas.Proofs.Extraction.DeclarationOrder

/-!
# Declarations within declarations

Java and Swift read nested declarations in the same way: a declaration with a name gives the entries of
its heading, then those of the members in its body; and a member is a declaration again, or holds
further members, or gives entries of its own.  A `NestedReading` has the two functions that read
declarations and members, and the equations that they satisfy, with what is particular to a language as
its parts: a `DeclarationRule`, how headings are read, and how all other members are.

What is proved of a `NestedReading` holds for both languages, and nothing about it needs the recursion
with which a language reads its trees.
-/

namespace TypeAtlas

open Syntax Entry

/-- A way to read declarations that may be nested. -/
structure NestedReading where
  rule : DeclarationRule
  visit : Visit
  /-- The entries of a declaration with some name, without its body. -/
  heading : String → Tree → List Entry
  /-- The entries of a member that is neither a declaration nor holds members. -/
  member : String → Tree → List Entry
  declaration : Tree → List Entry
  /-- The entries of the members that a node holds, for an owner. -/
  members : String → Tree → List Entry
  visit_eq : ∀ tree, visit tree = if rule.isDeclaration tree then some (declaration tree) else none
  declaration_eq : ∀ tree, declaration tree =
    (rule.name? tree).toList.flatMap fun name =>
      heading name tree ++ (tree.field? "body").toList.flatMap (members name)
  members_eq : ∀ owner tree, members owner tree =
    tree.namedChildren.flatMap fun child =>
      if rule.isNested child then declaration child
      else if rule.holdsMembers child then members owner child
      else member owner child

/-- What a node counts as is a matter of its label. -/
structure NestedReading.GoesByLabels (reading : NestedReading) : Prop where
  isDeclaration : ∀ tree other : Tree, other.label = tree.label →
    reading.rule.isDeclaration other = reading.rule.isDeclaration tree
  isNested : ∀ tree other : Tree, other.label = tree.label →
    reading.rule.isNested other = reading.rule.isNested tree
  holdsMembers : ∀ tree other : Tree, other.label = tree.label →
    reading.rule.holdsMembers other = reading.rule.holdsMembers tree

section Recursion

variable {read : List Tree → List Entry} {own : Tree → List Entry}

/-- Reading the first body is looking for it. -/
theorem eq_flatMap_body (hnil : read [] = [])
    (hcons : ∀ child rest,
      read (child :: rest) = if child.isUnder "body" then own child else read rest)
    (children : List Tree) :
    read children = (children.find? (Tree.isUnder "body")).toList.flatMap own := by
  induction children with
  | nil => exact hnil
  | cons child rest ih =>
      rw [hcons, List.find?_cons]
      cases child.isUnder "body" with
      | true => simp
      | false => exact ih

/-- Reading one member after the other is reading those that are named. -/
theorem eq_flatMap_named (hnil : read [] = [])
    (hcons : ∀ member rest,
      read (member :: rest) = (if !member.isNamed then [] else own member) ++ read rest)
    (children : List Tree) : read children = (children.filter Tree.isNamed).flatMap own := by
  induction children with
  | nil => exact hnil
  | cons child rest ih =>
      rw [hcons, ih, List.filter_cons]
      cases child.isNamed <;> rfl

end Recursion

/-! ## Java -/

namespace Java

theorem bodyEntries_eq (owner : String) (children : List Tree) :
    bodyEntries owner children =
      (children.find? (Tree.isUnder "body")).toList.flatMap (membersEntries owner) :=
  eq_flatMap_body (by rw [bodyEntries]) (fun child rest => by rw [bodyEntries]) children

theorem membersBelow_eq (owner : String) (children : List Tree) :
    membersBelow owner children =
      (children.filter Tree.isNamed).flatMap fun child =>
        if declarationRule.isNested child then declarationEntries (kindOf child) child
        else if declarationRule.holdsMembers child then membersEntries owner child
        else memberEntries owner child := by
  refine eq_flatMap_named (by rw [membersBelow]) (fun child rest => ?_) children
  have hnested : declarationRule.isNested child = (kindOf? child.type).isSome := rfl
  have hholds : declarationRule.holdsMembers child =
      decide (child.type = "enum_body_declarations") := rfl
  rw [membersBelow, hnested, hholds, kindOf]
  cases kindOf? child.type with
  | some kind => rfl
  | none => simp

def reading : NestedReading where
  rule := declarationRule
  visit := visit
  heading name tree := headingEntries name (kindOf tree) tree
  member := memberEntries
  declaration tree := declarationEntries (kindOf tree) tree
  members := membersEntries
  visit_eq tree := by
    have hdeclaration : declarationRule.isDeclaration tree = (kindOf? tree.type).isSome := rfl
    rw [visit, hdeclaration, kindOf]
    cases kindOf? tree.type <;> rfl
  declaration_eq
    | .node label children => by
        have hname : declarationRule.name? (.node label children) =
            declaredName? (.node label children) := rfl
        rw [declarationEntries, hname]
        cases declaredName? (.node label children) with
        | none => rfl
        | some name => simp [bodyEntries_eq, Tree.field?]
  members_eq owner
    | .node label children => by
        rw [membersEntries]
        exact membersBelow_eq owner children

section Reading

variable (tree : Tree)

theorem isDeclaration_reading :
    reading.rule.isDeclaration tree = (kindOf? tree.type).isSome := rfl

theorem isNested_reading : reading.rule.isNested tree = (kindOf? tree.type).isSome := rfl

theorem holdsMembers_reading :
    reading.rule.holdsMembers tree = decide (tree.type = "enum_body_declarations") := rfl

theorem heading_reading (name : String) :
    reading.heading name tree = headingEntries name (kindOf tree) tree := rfl

theorem member_reading (owner : String) : reading.member owner tree = memberEntries owner tree := rfl

end Reading

theorem goesByLabels_reading : reading.GoesByLabels where
  isDeclaration tree other hlabel := by
    rw [isDeclaration_reading, isDeclaration_reading, Tree.type, Tree.type, hlabel]
  isNested tree other hlabel := by
    rw [isNested_reading, isNested_reading, Tree.type, Tree.type, hlabel]
  holdsMembers tree other hlabel := by
    rw [holdsMembers_reading, holdsMembers_reading, Tree.type, Tree.type, hlabel]

end Java

/-! ## Swift -/

namespace Swift

theorem bodyEntries_eq (owner : String) (children : List Tree) :
    bodyEntries owner children =
      (children.find? (Tree.isUnder "body")).toList.flatMap (membersEntries owner) :=
  eq_flatMap_body (by rw [bodyEntries]) (fun child rest => by rw [bodyEntries]) children

theorem membersBelow_eq (owner : String) (children : List Tree) :
    membersBelow owner children =
      (children.filter Tree.isNamed).flatMap fun child =>
        if declarationRule.isNested child then declarationEntries child
        else if declarationRule.holdsMembers child then membersEntries owner child
        else memberEntries owner child := by
  refine eq_flatMap_named (by rw [membersBelow]) (fun child rest => ?_) children
  rw [membersBelow]
  rfl

def reading : NestedReading where
  rule := declarationRule
  visit := visit
  heading := headingEntries
  member := memberEntries
  declaration := declarationEntries
  members := membersEntries
  visit_eq tree := by
    have hdeclaration := isRuledBy_visit.isSome_visit tree
    rw [← hdeclaration, visit]
    split <;> rfl
  declaration_eq
    | .node label children => by
        have hname : declarationRule.name? (.node label children) =
            nameOf? (.node label children) := rfl
        rw [declarationEntries, hname]
        cases nameOf? (.node label children) with
        | none => rfl
        | some name => simp [bodyEntries_eq, Tree.field?]
  members_eq owner
    | .node label children => by
        rw [membersEntries]
        exact membersBelow_eq owner children

section Reading

variable (tree : Tree)

theorem isDeclaration_reading : reading.rule.isDeclaration tree =
    (nestedTypes.contains tree.type || tree.type = "extension_declaration") := rfl

theorem isNested_reading : reading.rule.isNested tree = nestedTypes.contains tree.type := rfl

theorem holdsMembers_reading : reading.rule.holdsMembers tree = false := rfl

theorem heading_reading (name : String) : reading.heading name tree = headingEntries name tree := rfl

theorem member_reading (owner : String) : reading.member owner tree = memberEntries owner tree := rfl

end Reading

theorem goesByLabels_reading : reading.GoesByLabels where
  isDeclaration tree other hlabel := by
    rw [isDeclaration_reading, isDeclaration_reading, Tree.type, Tree.type, hlabel]
  isNested tree other hlabel := by
    rw [isNested_reading, isNested_reading, Tree.type, Tree.type, hlabel]
  holdsMembers tree other _ := by rw [holdsMembers_reading, holdsMembers_reading]

end Swift
end TypeAtlas
