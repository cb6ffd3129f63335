import Mathlib.Data.List.Basic
import TypeAtlas.Extraction.Go
import TypeAtlas.Extraction.Java
import TypeAtlas.Extraction.Swift
import TypeAtlas.Extraction.TypeScript
import TypeAtlas.Proofs.Extraction.Validity
import TypeAtlas.Proofs.Syntax.Positions

/-!
# The order of the names in a type

For each language there is a plain recursion here, `names`: at a node that names a type or is opaque it
does what the language says of the node, and at any other node it goes through the children from left
to right.  The languages read with a list of pending trees instead, and find the same list of names
(`NameRule.IsFollowedBy.gather_eq`): at any time what is still to be found is what the plain recursion
finds in the pending trees, one after the other.

Who asks for the first name in a type relies on the order.  For a Swift type that is its last segment,
before all names in its type arguments; for a Go type it is the type that is named first in the source
(`Go.head?_names_eq_some_iff`).
-/

namespace TypeAtlas

open Syntax Tree

/-! ## Pending trees -/

/-- A plain recursion does at each tree that fits what a rule says of it. -/
structure NameRule.IsFollowedBy (rule : NameRule) (names : Tree → List String)
    (fits : Tree → Prop) : Prop where
  names_eq : ∀ tree, fits tree →
    names tree = (rule.find tree).names ++ (rule.find tree).next.flatMap names
  next : ∀ tree, fits tree → ∀ below ∈ (rule.find tree).next, fits below

namespace NameRule.IsFollowedBy

variable {rule : NameRule} {names : Tree → List String} {fits : Tree → Prop}

/-- **What is found in pending trees** is what the plain recursion finds in one after the other. -/
theorem gather_eq (hrule : rule.IsFollowedBy names fits) (pending : List Tree)
    (hpending : ∀ tree ∈ pending, fits tree) : rule.gather pending = pending.flatMap names := by
  fun_induction rule.gather pending with
  | case1 => rfl
  | case2 tree rest ih =>
      obtain ⟨htree, hrest⟩ := List.forall_mem_cons.mp hpending
      have hlater := ih (List.forall_mem_append.mpr ⟨hrule.next tree htree, hrest⟩)
      rw [hlater, List.flatMap_append, List.flatMap_cons, hrule.names_eq tree htree,
        List.append_assoc]

theorem namesIn_eq (hrule : rule.IsFollowedBy names fits) {tree : Tree} (htree : fits tree) :
    rule.namesIn tree = names tree := by
  rw [namesIn, hrule.gather_eq [tree] (List.forall_mem_singleton.mpr htree), List.flatMap_singleton]

end NameRule.IsFollowedBy

/-- What goes through trees from left to right gives what it gives of each, one after the other. -/
theorem eq_flatMap_of_cons {names : Tree → List String} {below : List Tree → List String}
    (hnil : below [] = []) (hcons : ∀ tree rest, below (tree :: rest) = names tree ++ below rest)
    (trees : List Tree) : below trees = trees.flatMap names := by
  induction trees with
  | nil => exact hnil
  | cons tree rest ih => rw [hcons, ih, List.flatMap_cons]

/-! ## TypeScript -/

namespace TypeScript

mutual

/-- The names in a type, or in an expression. -/
def names (inExpression : Bool) : Tree → List String
  | .node label children =>
    if label.type = "type_identifier" then [label.raw.decode]
    else if label.type = "identifier" then if inExpression then [label.raw.decode] else []
    else if label.type = "nested_type_identifier" then
      (((node label children).field? "name").or (node label children).lastNamedChild?).toList.map text
    else if label.type = "member_expression" ∧ inExpression then
      ((node label children).field? "property").toList.map text
    else if closedTypes.contains label.type then []
    else namesBelow inExpression children

def namesBelow (inExpression : Bool) : List Tree → List String
  | [] => []
  | child :: rest => names inExpression child ++ namesBelow inExpression rest

end

theorem namesBelow_eq (inExpression : Bool) (children : List Tree) :
    namesBelow inExpression children = children.flatMap (names inExpression) :=
  eq_flatMap_of_cons rfl (fun _ _ => rfl) children

theorem names_eq (inExpression : Bool) (tree : Tree) :
    names inExpression tree = (find inExpression tree).names ++
      (find inExpression tree).next.flatMap (names inExpression) := by
  cases tree with
  | node label children =>
      simp only [names, find, type_node, text_node, children_node, namesBelow_eq]
      cases inExpression <;> split_ifs <;> simp_all

theorem isFollowedBy_typeRule : typeRule.IsFollowedBy (names false) fun _ => True :=
  ⟨fun tree _ => names_eq false tree, fun _ _ _ _ => trivial⟩

theorem isFollowedBy_expressionRule : expressionRule.IsFollowedBy (names true) fun _ => True :=
  ⟨fun tree _ => names_eq true tree, fun _ _ _ _ => trivial⟩

end TypeScript

/-! ## Swift -/

namespace Swift

mutual

/-- The names in a type: of a class type its last segment, then those in its type arguments. -/
def names : Tree → List String
  | .node label children =>
    if label.type = "user_type" then
      ((node label children).childrenOf ["type_identifier"]).getLast?.toList.map text ++
        argumentNames children
    else if label.type = "type_identifier" then [label.raw.decode]
    else namesBelow children

def namesBelow : List Tree → List String
  | [] => []
  | child :: rest => names child ++ namesBelow rest

/-- The names in those of some children that are type arguments. -/
def argumentNames : List Tree → List String
  | [] => []
  | child :: rest =>
    (if child.type = "type_arguments" then names child else []) ++ argumentNames rest

end

theorem namesBelow_eq (children : List Tree) : namesBelow children = children.flatMap names :=
  eq_flatMap_of_cons rfl (fun _ _ => rfl) children

theorem argumentNames_eq (children : List Tree) :
    argumentNames children =
      (children.filter fun child => ["type_arguments"].contains child.type).flatMap names := by
  induction children with
  | nil => rfl
  | cons child rest ih =>
      rw [argumentNames, ih, List.filter_cons]
      by_cases htype : child.type = "type_arguments" <;> simp [htype]

theorem names_eq (tree : Tree) :
    names tree = (find tree).names ++ (find tree).next.flatMap names := by
  cases tree with
  | node label children =>
      simp only [names, find, type_node, text_node, childrenOf, children_node, namesBelow_eq,
        argumentNames_eq]
      split_ifs <;> simp_all

theorem isFollowedBy_typeRule : typeRule.IsFollowedBy names fun _ => True :=
  ⟨fun tree _ => names_eq tree, fun _ _ _ _ => trivial⟩

/-- The first name in a class type is its last segment. -/
theorem head?_namesIn {tree segment : Tree} (htype : tree.type = "user_type")
    (hsegment : (tree.childrenOf ["type_identifier"]).getLast? = some segment) :
    (typeRule.namesIn tree).head? = some segment.text := by
  have hfind : (find tree).names = [segment.text] := by
    rw [find, if_pos htype, hsegment]
    rfl
  rw [isFollowedBy_typeRule.namesIn_eq trivial, names_eq, hfind]
  rfl

theorem nameOf?_eq {declaration name segment : Tree} (hname : nameNode? declaration = some name)
    (htype : name.type = "user_type")
    (hsegment : (name.childrenOf ["type_identifier"]).getLast? = some segment) :
    nameOf? declaration = if segment.text = "" then none else some segment.text := by
  simp only [nameOf?, hname, htype, if_true, List.headD_eq_head?_getD,
    head?_namesIn htype hsegment, Option.getD_some]

end Swift

/-! ## Go -/

namespace Go

mutual

/-- The names in a type. -/
def names : Tree → List String
  | .node label children =>
    if label.type = "type_identifier" then [label.raw.decode]
    else if label.type = "qualified_type" then
      ((node label children).field? "name").toList.map text
    else if ["package_identifier", "field_identifier", "identifier"].contains label.type then []
    else namesBelow children

def namesBelow : List Tree → List String
  | [] => []
  | child :: rest => names child ++ namesBelow rest

end

theorem namesBelow_eq (children : List Tree) : namesBelow children = children.flatMap names :=
  eq_flatMap_of_cons rfl (fun _ _ => rfl) children

theorem names_eq (tree : Tree) :
    names tree = (find tree).names ++ (find tree).next.flatMap names := by
  cases tree with
  | node label children =>
      simp only [names, find, type_node, text_node, children_node, namesBelow_eq]
      split_ifs <;> simp_all

theorem isFollowedBy_typeRule : typeRule.IsFollowedBy names fun _ => True :=
  ⟨fun tree _ => names_eq tree, fun _ _ _ _ => trivial⟩

/-! ### Named types by position -/

/-- The nodes of a type that are not looked into. -/
def closedTypes : List String :=
  ["type_identifier", "qualified_type", "package_identifier", "field_identifier", "identifier"]

/-- The name of the type that a node names, if it does. -/
def ownName? (tree : Tree) : Option String :=
  if tree.type = "type_identifier" then some tree.text
  else if tree.type = "qualified_type" then (tree.field? "name").map text
  else none

/-- The name of the type that is named at a position. -/
def nameAt? (tree : Tree) : List Nat → Option String
  | [] => ownName? tree
  | index :: rest =>
    if closedTypes.contains tree.type then none
    else tree.children[index]?.bind fun child => nameAt? child rest

/-- The type with a name is the first that is named in a tree. -/
def IsFirstNamed (tree : Tree) (name : String) : Prop :=
  ∃ position, nameAt? tree position = some name ∧ ∀ other < position, nameAt? tree other = none

theorem mem_positions_of_nameAt? {tree : Tree} {position : List Nat} {name : String}
    (hname : nameAt? tree position = some name) : position ∈ tree.positions := by
  rw [mem_positions_iff]
  induction position generalizing tree with
  | nil => exact ⟨tree, rfl⟩
  | cons index rest ih =>
      rw [nameAt?] at hname
      split at hname
      case isTrue => cases hname
      case isFalse =>
        obtain ⟨child, hchild, hname⟩ := Option.bind_eq_some_iff.mp hname
        obtain ⟨below, hbelow⟩ := ih hname
        exact ⟨below, by rw [at?_cons, hchild, Option.bind_some, hbelow]⟩

/-- What a node gives, in terms of the name that it stands for. -/
theorem find_eq (tree : Tree) :
    find tree =
      ⟨(ownName? tree).toList, if closedTypes.contains tree.type then [] else tree.children⟩ := by
  rw [find, ownName?]
  split_ifs with hname hqualified hopaque hclosed <;>
    simp_all [closedTypes, Option.toList_map]

/-- **Names are found in the order of their positions.** -/
theorem names_eq_filterMap (tree : Tree) :
    names tree = tree.positions.filterMap (nameAt? tree) := by
  rw [names_eq, find_eq, filterMap_positions]
  refine congrArg ((ownName? tree).toList ++ ·) ?_
  simp only [nameAt?]
  split_ifs with hclosed
  · simp
  · rw [← flatMap_zipIdx_fst tree.children 0 names]
    refine List.flatMap_congr fun entry hentry => ?_
    have hchild := List.mem_zipIdx_iff_getElem?.mp hentry
    simp only [hchild, Option.bind_some]
    exact names_eq_filterMap entry.1
termination_by tree.size
decreasing_by exact size_lt_of_mem (List.mem_of_getElem? hchild)

/-- The first name that is found is that of the type named first. -/
theorem head?_names_eq_some_iff {tree : Tree} {name : String} :
    (names tree).head? = some name ↔ IsFirstNamed tree name := by
  rw [names_eq_filterMap]
  exact head?_filterMap_positions fun _ _ hname => mem_positions_of_nameAt? hname

/-- The types of the parameters that a receiver may be in. -/
def receiverTypes (method : Tree) : List Tree :=
  ((method.field? "receiver").or (method.findChild? ["parameter_list"])).toList.flatMap fun holder =>
    (holder.childrenOf ["parameter_declaration"]).filterMap fun parameter => parameter.field? "type"

theorem receiver?_eq (method : Tree) :
    receiver? method = (receiverTypes method).head?.bind fun type =>
      (typeRule.namesIn type).head?.bind fun name => if name = "" then none else some name := by
  rw [receiver?, ← receiverTypes]
  cases receiverTypes method with
  | nil => rfl
  | cons type _ =>
      dsimp only [List.head?_cons, Option.bind_some]
      cases typeRule.namesIn type <;> rfl

/-- A method belongs to the type that is named first in the first of these. -/
theorem receiver?_eq_some_iff {method : Tree} {name : String} :
    receiver? method = some name ↔
      name ≠ "" ∧ ∃ type, (receiverTypes method).head? = some type ∧ IsFirstNamed type name := by
  simp only [receiver?_eq, Option.bind_eq_some_iff, Option.ite_none_left_eq_some, Option.some.injEq,
    isFollowedBy_typeRule.namesIn_eq trivial, head?_names_eq_some_iff]
  constructor
  · rintro ⟨type, htype, _, hfirst, hname, rfl⟩
    exact ⟨hname, type, htype, hfirst⟩
  · rintro ⟨hname, type, htype, hfirst⟩
    exact ⟨type, htype, name, hfirst, hname, rfl⟩

end Go

/-! ## Java -/

namespace Java

mutual

/-- The names in a type: of a qualified name its last segment, then those in the type arguments of the
segments before it. -/
def names : Tree → List String
  | .node label children =>
    if label.type = "type_identifier" then [label.raw.decode]
    else if label.type = "scoped_type_identifier" then
      (lastSegment? (node label children)).toList.map text ++ outerNames children
    else if ["annotation", "marker_annotation"].contains label.type then []
    else namesBelow children

def namesBelow : List Tree → List String
  | [] => []
  | child :: rest => names child ++ namesBelow rest

/-- The names in the type arguments of those of some children that are outer segments. -/
def outerNames : List Tree → List String
  | [] => []
  | child :: rest =>
    (if child.isNamed ∧ ["generic_type", "scoped_type_identifier"].contains child.type then
      argumentNames child else []) ++ outerNames rest

def argumentNames : Tree → List String
  | .node _ children => firstArgumentNames children

/-- The names in the first type arguments among some children. -/
def firstArgumentNames : List Tree → List String
  | [] => []
  | child :: rest =>
    if child.type = "type_arguments" then names child else firstArgumentNames rest

end

theorem namesBelow_eq (children : List Tree) : namesBelow children = children.flatMap names :=
  eq_flatMap_of_cons rfl (fun _ _ => rfl) children

theorem firstArgumentNames_eq (children : List Tree) :
    firstArgumentNames children =
      (children.find? fun child => ["type_arguments"].contains child.type).toList.flatMap names := by
  induction children with
  | nil => rfl
  | cons child rest ih =>
      rw [firstArgumentNames, ih, List.find?_cons]
      by_cases htype : child.type = "type_arguments" <;> simp [htype]

theorem argumentNames_eq (tree : Tree) : argumentNames tree = (typeArguments tree).flatMap names := by
  cases tree with
  | node label children => exact firstArgumentNames_eq children

theorem outerNames_eq (tree : Tree) :
    outerNames tree.children = ((outerSegments tree).reverse.flatMap typeArguments).flatMap names := by
  rw [outerSegments, List.reverse_reverse, namedChildren, List.filter_filter]
  induction tree.children with
  | nil => rfl
  | cons child rest ih =>
      rw [outerNames, ih, argumentNames_eq, List.filter_cons]
      by_cases hsegment : child.isNamed = true ∧
          ["generic_type", "scoped_type_identifier"].contains child.type = true
      · rw [if_pos hsegment, if_pos (by rw [hsegment.1, hsegment.2]; rfl), List.flatMap_cons,
          List.flatMap_append]
      · rw [if_neg hsegment, if_neg (by rwa [Bool.and_eq_true, and_comm]), List.nil_append]

/-- Every qualified name in a tree has at most one segment before its last that may have type
arguments. -/
def HasSingleSegments (root : Tree) : Prop :=
  ∀ tree, root.Contains tree → tree.type = "scoped_type_identifier" →
    (outerSegments tree).length ≤ 1

theorem names_eq {tree : Tree}
    (hsingle : tree.type = "scoped_type_identifier" → (outerSegments tree).length ≤ 1) :
    names tree = (find tree).names ++ (find tree).next.flatMap names := by
  have houter : tree.type = "scoped_type_identifier" →
      outerNames tree.children = ((outerSegments tree).flatMap typeArguments).flatMap names := by
    intro htype
    have hreverse : (outerSegments tree).reverse = outerSegments tree := by
      match outerSegments tree, hsingle htype with
      | [], _ => rfl
      | [_], _ => rfl
    rw [outerNames_eq, hreverse]
  cases tree with
  | node label children =>
      simp only [type_node, children_node] at houter
      simp only [names, find, type_node, text_node, children_node, namesBelow_eq]
      split_ifs <;> simp_all

theorem contains_of_mem_next {tree below : Tree} (hbelow : below ∈ (find tree).next) :
    tree.Contains below := by
  unfold find at hbelow
  split_ifs at hbelow
  · cases hbelow
  · obtain ⟨segment, hsegment, hbelow⟩ := List.mem_flatMap.mp hbelow
    have hchild := List.mem_of_mem_filter (List.mem_of_mem_filter (List.mem_reverse.mp hsegment))
    exact .child (.child .self hchild) (List.mem_of_find?_eq_some (Option.mem_toList.mp hbelow))
  · cases hbelow
  · exact .child .self hbelow

theorem isFollowedBy_typeRule : typeRule.IsFollowedBy names HasSingleSegments where
  names_eq tree htree := names_eq (htree tree .self)
  next _ htree _ hbelow tree hcontains :=
    htree tree ((contains_of_mem_next hbelow).trans hcontains)

/-- Of several such segments the last one is looked at first. -/
example :
    let segment name := node { type := "generic_type" } [node { type := "type_arguments" }
      [node { type := "type_identifier", raw := .plain name } []]]
    let tree := node { type := "scoped_type_identifier" } [segment "A", segment "B"]
    typeRule.namesIn tree = ["B", "A"] ∧ names tree = ["A", "B"] := by
  decide +kernel

end Java

/-- **Names are found in the order of a plain recursion** in every type, in Java if no qualified name
has more than one segment with type arguments before its last.  So the first name in a Swift type is
its last segment, which is what a declaration declares or extends; and the first name in a Go type is
that of the type named first, which is what a method belongs to. -/
theorem namesIn_eq_names :
    (∀ tree, TypeScript.typeRule.namesIn tree = TypeScript.names false tree) ∧
      (∀ tree, TypeScript.expressionRule.namesIn tree = TypeScript.names true tree) ∧
      (∀ tree, Swift.typeRule.namesIn tree = Swift.names tree) ∧
      (∀ tree, Go.typeRule.namesIn tree = Go.names tree) ∧
      (∀ tree, Java.HasSingleSegments tree → Java.typeRule.namesIn tree = Java.names tree) ∧
      (∀ tree segment, tree.type = "user_type" →
        (tree.childrenOf ["type_identifier"]).getLast? = some segment →
          (Swift.typeRule.namesIn tree).head? = some segment.text ∧
            ∀ declaration, Swift.nameNode? declaration = some tree →
              Swift.nameOf? declaration = if segment.text = "" then none else some segment.text) ∧
      (∀ tree name, (Go.typeRule.namesIn tree).head? = some name ↔ Go.IsFirstNamed tree name) ∧
      ∀ method name, Go.receiver? method = some name ↔
        name ≠ "" ∧ ∃ type, (Go.receiverTypes method).head? = some type ∧
          Go.IsFirstNamed type name := by
  refine ⟨fun tree => TypeScript.isFollowedBy_typeRule.namesIn_eq trivial,
    fun tree => TypeScript.isFollowedBy_expressionRule.namesIn_eq trivial,
    fun tree => Swift.isFollowedBy_typeRule.namesIn_eq trivial,
    fun tree => Go.isFollowedBy_typeRule.namesIn_eq trivial,
    fun tree htree => Java.isFollowedBy_typeRule.namesIn_eq htree, ?_, ?_,
    fun _ _ => Go.receiver?_eq_some_iff⟩
  · intro tree segment htype hsegment
    exact ⟨Swift.head?_namesIn htype hsegment,
      fun _ hname => Swift.nameOf?_eq hname htype hsegment⟩
  · intro tree name
    rw [Go.isFollowedBy_typeRule.namesIn_eq trivial, Go.head?_names_eq_some_iff]

end TypeAtlas
