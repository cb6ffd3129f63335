import TypeAtlas.Extraction.CallDepth

/-!
# Java declarations

Classes, records, interfaces, annotation types and enumerations, also those nested in the bodies of
others: every declaration that is a direct member of a body is one of its own.  A class extends its
superclass and implements its interfaces, an interface extends its interfaces; fields and record
components, parameters and results of methods refer to their types.
-/

namespace TypeAtlas.Java

open Syntax

def builtins : List String :=
  ["byte", "short", "int", "long", "char", "float", "double", "boolean", "void", "var", "String",
    "Object", "Byte", "Short", "Integer", "Long", "Character", "Float", "Double", "Boolean", "Void"]

/-! ## Type expressions -/

def typeArguments (segment : Tree) : List Tree := (segment.findChild? ["type_arguments"]).toList

/-- The segments of a qualified name that may have type arguments, the last one first. -/
def outerSegments (tree : Tree) : List Tree :=
  (tree.namedChildren.filter fun child =>
    ["generic_type", "scoped_type_identifier"].contains child.type).reverse

/-- The last segment of a qualified name. -/
def lastSegment? (tree : Tree) : Option Tree :=
  (tree.namedChildren.filter fun child => child.type = "type_identifier").getLast?

/-- What a node of a type expression gives.  A qualified name gives its last segment, and the type
arguments of its other segments are looked at. -/
def find (tree : Tree) : Finding :=
  if tree.type = "type_identifier" then ⟨[tree.text], []⟩
  else if tree.type = "scoped_type_identifier" then
    ⟨(lastSegment? tree).toList.map Tree.text, (outerSegments tree).flatMap typeArguments⟩
  else if ["annotation", "marker_annotation"].contains tree.type then ⟨[], []⟩
  else ⟨[], tree.children⟩

theorem sizeAll_outerSegments_le (tree : Tree) :
    Tree.sizeAll (outerSegments tree) ≤ Tree.sizeAll tree.children := by
  rw [outerSegments, Tree.sizeAll_reverse]
  exact Tree.sizeAll_le_of_sublist (List.filter_sublist.trans List.filter_sublist)

theorem next_find_lt (tree : Tree) : Tree.sizeAll (find tree).next < tree.size := by
  have hchildren := tree.sizeAll_children_lt
  have hpos := tree.size_pos
  have harguments : Tree.sizeAll ((outerSegments tree).flatMap typeArguments) ≤
      Tree.sizeAll (outerSegments tree) :=
    Tree.sizeAll_flatMap_le (fun segment => segment.sizeAll_findChild?_le _) (outerSegments tree)
  have houter := sizeAll_outerSegments_le tree
  unfold find
  repeat' split
  · exact hpos
  · exact Nat.lt_of_le_of_lt (Nat.le_trans harguments houter) hchildren
  · exact hpos
  · exact hchildren

def typeRule : NameRule := ⟨find, next_find_lt⟩

/-! ## Declarations -/

def kindOf? (type : String) : Option NodeKind :=
  if type = "class_declaration" then some .classType
  else if type = "record_declaration" then some .classType
  else if type = "interface_declaration" then some .interfaceType
  else if type = "annotation_type_declaration" then some .interfaceType
  else if type = "enum_declaration" then some .enumType
  else none

def besidesType : List String := ["modifiers", "variable_declarator"]

/-- The names in the type of one parameter.  The type of a variable number of arguments stands under
no field: it is the first child besides the modifiers and the name. -/
def parameterNames (parameter : Tree) : List String :=
  if parameter.type = "formal_parameter" then
    (parameter.field? "type").toList.flatMap typeRule.namesIn
  else if parameter.type = "spread_parameter" then
    (parameter.namedChildren.find? fun child =>
      child.type ∉ besidesType).toList.flatMap typeRule.namesIn
  else []

/-- The references of the parameters that a node may hold. -/
def parameterEntries (owner : String) (kind : EdgeKind) (holder : Tree) : List Entry :=
  (holder.field? "parameters").toList.map fun parameters =>
    .refers owner (parameters.namedChildren.flatMap parameterNames) kind

def fieldMembers : List String := ["field_declaration", "constant_declaration"]

def methodMembers : List String :=
  ["method_declaration", "constructor_declaration", "compact_constructor_declaration"]

/-- The references of a member that is a field or a method. -/
def memberEntries (owner : String) (member : Tree) : List Entry :=
  if fieldMembers.contains member.type then
    references typeRule owner .fieldType (member.field? "type")
  else if methodMembers.contains member.type then
    references typeRule owner .methodReturn (member.field? "type") ++
      parameterEntries owner .methodParam member
  else []

def headingEntries (name : String) (kind : NodeKind) (tree : Tree) : List Entry :=
  .declared name kind tree.label.row ::
    (references typeRule name .extension (tree.field? "superclass") ++
      references typeRule name .implementation (tree.field? "interfaces") ++
      references typeRule name .extension (tree.findChild? ["extends_interfaces"]) ++
      if tree.type = "record_declaration" then parameterEntries name .fieldType tree else [])

mutual

/-- The entries of a declaration of the given kind: its own, then those of its body. -/
def declarationEntries (kind : NodeKind) : Tree → List Entry
  | .node label children =>
    match declaredName? (.node label children) with
    | none => []
    | some name =>
      headingEntries name kind (.node label children) ++ bodyEntries name children

/-- The entries of the first body among the children of a declaration. -/
def bodyEntries (owner : String) : List Tree → List Entry
  | [] => []
  | child :: rest =>
    if child.isUnder "body" then membersEntries owner child else bodyEntries owner rest

def membersEntries (owner : String) : Tree → List Entry
  | .node _ children => membersBelow owner children

/-- The entries of the members among some children.  Nested declarations are read as declarations;
the members that follow the constants of an enumeration are those of the enumeration. -/
def membersBelow (owner : String) : List Tree → List Entry
  | [] => []
  | member :: rest =>
    (if !member.isNamed then []
      else match kindOf? member.type with
        | some kind => declarationEntries kind member
        | none =>
          if member.type = "enum_body_declarations" then membersEntries owner member
          else memberEntries owner member) ++ membersBelow owner rest

end

def visit : Visit := fun tree => (kindOf? tree.type).map fun kind => declarationEntries kind tree

/-! ## Calls -/

/-- The kind of a declaration; for what is none, it does not matter. -/
def kindOf (tree : Tree) : NodeKind := (kindOf? tree.type).getD .classType

def reader : NestedReader where
  name? := declaredName?
  heading name tree := headingEntries name (kindOf tree) tree
  isNested tree := (kindOf? tree.type).isSome
  holdsMembers tree := tree.type = "enum_body_declarations"
  member := memberEntries

end TypeAtlas.Java
