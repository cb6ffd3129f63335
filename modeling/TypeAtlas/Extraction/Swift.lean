import TypeAtlas.Extraction.CallDepth

/-!
# Swift declarations

Classes, structures, actors, enumerations and protocols, also those nested in the bodies of others.
The grammar has one node type for most of them, and a keyword tells them apart.  An extension
declares nothing, but what it implements and declares is said of the type that it extends.
-/

namespace TypeAtlas.Swift

open Syntax

def builtins : List String :=
  ["Int", "Int8", "Int16", "Int32", "Int64", "UInt", "UInt8", "UInt16", "UInt32", "UInt64", "Float",
    "Double", "Bool", "String", "Character", "Void", "Any", "AnyObject", "Never", "Self"]

/-! ## Type expressions -/

/-- What a node of a type expression gives.  A qualified name gives its last segment, and its type
arguments are looked at. -/
def find (tree : Tree) : Finding :=
  if tree.type = "user_type" then
    ⟨(tree.childrenOf ["type_identifier"]).getLast?.toList.map Tree.text,
      tree.childrenOf ["type_arguments"]⟩
  else if tree.type = "type_identifier" then ⟨[tree.text], []⟩
  else ⟨[], tree.children⟩

theorem next_find_lt (tree : Tree) : Tree.sizeAll (find tree).next < tree.size := by
  have hchildren := tree.sizeAll_children_lt
  have hpos := tree.size_pos
  have harguments := tree.sizeAll_childrenOf_lt ["type_arguments"]
  unfold find
  repeat' split
  · exact harguments
  · exact hpos
  · exact hchildren

def typeRule : NameRule := ⟨find, next_find_lt⟩

/-! ## Names and kinds -/

/-- The keywords of the declarations that share one node type. -/
def keywords : List String := ["class", "struct", "actor", "enum", "extension"]

/-- The keyword of a declaration: the text under its field, or a token, or else `class`. -/
def keywordOf (tree : Tree) : String :=
  match tree.field? "declaration_kind" with
  | some keyword => keyword.text
  | none => (keywords.find? tree.hasToken).getD "class"

/-- The kind that a keyword declares; an extension declares none. -/
def kindOfKeyword? (keyword : String) : Option NodeKind :=
  if keyword = "enum" then some .enumType
  else if keyword = "extension" then none
  else some .classType

/-- The kind that a declaration declares, if it declares any. -/
def kindOf? (tree : Tree) : Option NodeKind :=
  if tree.type = "protocol_declaration" then some .protocolType
  else if tree.type = "enum_declaration" then some .enumType
  else if tree.type = "extension_declaration" then none
  else kindOfKeyword? (keywordOf tree)

/-- The node that names a declaration; an extension may hold the extended type under no field. -/
def nameNode? (tree : Tree) : Option Tree :=
  (tree.field? "name").or (tree.findChild? ["user_type", "type_identifier"])

/-- The name that a declaration declares or extends.  Of a type, that is the first name in it. -/
def nameOf? (tree : Tree) : Option String :=
  match nameNode? tree with
  | none => none
  | some node =>
    let name := if node.type = "user_type" then (typeRule.namesIn node).headD ""
      else Text.trim node.text
    if name = "" then none else some name

/-! ## Members -/

def propertyMembers : List String :=
  ["property_declaration", "protocol_property_declaration", "variable_declaration"]

def functionMembers : List String :=
  ["function_declaration", "protocol_function_declaration", "init_declaration"]

/-- The type annotations of a property, which may bind several names; if there are none, its type.
-/
def annotations (member : Tree) : List Tree :=
  let found := member.children.flatMap fun child =>
    if child.type = "type_annotation" then [child]
    else if child.type = "pattern_binding" then child.childrenOf ["type_annotation"]
    else []
  if found.isEmpty then (member.field? "type").toList else found

/-- The parameters of a function: its own, or else those of the node that holds them. -/
def parameters (function : Tree) : List Tree :=
  match function.childrenOf ["parameter"] with
  | [] =>
    let holder := (function.field? "parameters").or
      (function.findChild? ["function_value_parameters"])
    holder.toList.flatMap fun node =>
      node.namedChildren.filter fun child => child.type = "parameter"
  | own => own

/-- The references of a member that is a property or a function. -/
def memberEntries (owner : String) (member : Tree) : List Entry :=
  if propertyMembers.contains member.type then
    (annotations member).map fun annotation =>
      .refers owner (typeRule.namesIn annotation) .fieldType
  else if functionMembers.contains member.type then
    ((parameters member).flatMap fun parameter =>
      references typeRule owner .methodParam (parameter.field? "type")) ++
      references typeRule owner .methodReturn (member.field? "return_type")
  else []

/-! ## Declarations -/

def nestedTypes : List String := ["class_declaration", "protocol_declaration", "enum_declaration"]

def inheritanceTypes : List String := ["inheritance_specifier", "type_inheritance_clause"]

/-- The entries of a declaration without its body.  A protocol extends what it inherits, all others
implement it. -/
def headingEntries (name : String) (tree : Tree) : List Entry :=
  let kind := kindOf? tree
  let inheritance := if kind = some .protocolType then EdgeKind.extension else .implementation
  (kind.toList.map fun declared => .declared name declared tree.label.row) ++
    (tree.childrenOf inheritanceTypes).map fun child =>
      .refers name (typeRule.namesIn child) inheritance

mutual

/-- The entries of a declaration: its own, then those of its body. -/
def declarationEntries : Tree → List Entry
  | .node label children =>
    match nameOf? (.node label children) with
    | none => []
    | some name => headingEntries name (.node label children) ++ bodyEntries name children

/-- The entries of the first body among the children of a declaration. -/
def bodyEntries (owner : String) : List Tree → List Entry
  | [] => []
  | child :: rest =>
    if child.isUnder "body" then membersEntries owner child else bodyEntries owner rest

def membersEntries (owner : String) : Tree → List Entry
  | .node _ children => membersBelow owner children

/-- The entries of the members among some children; nested declarations are read as declarations. -/
def membersBelow (owner : String) : List Tree → List Entry
  | [] => []
  | member :: rest =>
    (if !member.isNamed then []
      else if nestedTypes.contains member.type then declarationEntries member
      else memberEntries owner member) ++ membersBelow owner rest

end

def visit : Visit := fun tree =>
  if nestedTypes.contains tree.type ∨ tree.type = "extension_declaration" then
    some (declarationEntries tree)
  else none

/-! ## Calls -/

def reader : NestedReader where
  name? := nameOf?
  heading := headingEntries
  isNested tree := nestedTypes.contains tree.type
  holdsMembers _ := false
  member := memberEntries

end TypeAtlas.Swift
