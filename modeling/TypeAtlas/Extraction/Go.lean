import TypeAtlas.Extraction.Walk

/-!
# Go declarations

The structures and interfaces that are declared at package level.  A structure extends what it
embeds and refers to the types of its other fields; an interface extends what it embeds; the
parameters and results of methods, which stand outside the declaration, belong to the receiver's
type.  What is declared inside a function is local to it.
-/

namespace TypeAtlas.Go

open Syntax

def builtins : List String :=
  ["string", "int", "int8", "int16", "int32", "int64", "uint", "uint8", "uint16", "uint32",
    "uint64", "float32", "float64", "complex64", "complex128", "bool", "byte", "rune", "error",
    "any", "uintptr", "comparable"]

/-! ## Type expressions -/

/-- What a node of a type expression gives.  A qualified name gives the name without the package. -/
def find (tree : Tree) : Finding :=
  if tree.type = "type_identifier" then ⟨[tree.text], []⟩
  else if tree.type = "qualified_type" then ⟨(tree.field? "name").toList.map Tree.text, []⟩
  else if ["package_identifier", "field_identifier", "identifier"].contains tree.type then ⟨[], []⟩
  else ⟨[], tree.children⟩

theorem next_find_lt (tree : Tree) : Tree.sizeAll (find tree).next < tree.size := by
  have hchildren := tree.sizeAll_children_lt
  have hpos := tree.size_pos
  unfold find
  repeat' split
  all_goals first | exact hchildren | exact hpos

def typeRule : NameRule := ⟨find, next_find_lt⟩

/-- The first name in a type, as an embedded type or a receiver has it. -/
def firstName (tree : Tree) : List String := (typeRule.namesIn tree).take 1

/-! ## Members -/

def parameterTypes : List String := ["parameter_declaration", "variadic_parameter_declaration"]

def parameterEntries (owner : String) (parameters : Tree) : List Entry :=
  (parameters.namedChildren.filter fun parameter => parameterTypes.contains parameter.type).flatMap
    fun parameter => references typeRule owner .methodParam (parameter.field? "type")

/-- The references of the parameters and the result of a method. -/
def signatureEntries (owner : String) (method : Tree) : List Entry :=
  (method.field? "parameters").toList.flatMap (parameterEntries owner) ++
    references typeRule owner .methodReturn (method.field? "result")

/-- The references of a field.  A field without a name embeds its type. -/
def fieldEntries (owner : String) (field : Tree) : List Entry :=
  match field.field? "name" with
  | some _ => references typeRule owner .fieldType (field.field? "type")
  | none =>
    let embedded := (field.field? "type").or
      (field.findChild? ["type_identifier", "qualified_type"])
    embedded.toList.map fun tree => .refers owner (firstName tree) .extension

def structEntries (owner : String) (struct : Tree) : List Entry :=
  (struct.findChild? ["field_declaration_list"]).toList.flatMap fun fields =>
    (fields.childrenOf ["field_declaration"]).flatMap (fieldEntries owner)

def methodMembers : List String := ["method_elem", "method_spec"]

def embeddingMembers : List String :=
  ["type_elem", "constraint_elem", "interface_type_name", "type_identifier", "qualified_type"]

def memberEntries (owner : String) (member : Tree) : List Entry :=
  if methodMembers.contains member.type then signatureEntries owner member
  else if embeddingMembers.contains member.type then
    [.refers owner (typeRule.namesIn member) .extension]
  else []

/-! ## Declarations -/

/-- The entries of one declared type; types other than structures and interfaces give none. -/
def specEntries (spec : Tree) : List Entry :=
  match declaredName? spec, spec.field? "type" with
  | some name, some type =>
    if type.type = "struct_type" then
      .declared name .classType spec.label.row :: structEntries name type
    else if type.type = "interface_type" then
      .declared name .interfaceType spec.label.row ::
        type.namedChildren.flatMap (memberEntries name)
    else []
  | _, _ => []

/-- The type of a method's receiver: the first name in the type of the first parameter that has
one. -/
def receiver? (method : Tree) : Option String :=
  let holder := (method.field? "receiver").or (method.findChild? ["parameter_list"])
  let typed := holder.toList.flatMap fun node =>
    (node.childrenOf ["parameter_declaration"]).filterMap fun parameter => parameter.field? "type"
  match typed with
  | [] => none
  | type :: _ =>
    match typeRule.namesIn type with
    | [] => none
    | name :: _ => if name = "" then none else some name

def visit : Visit := fun tree =>
  if tree.type = "type_declaration" then
    some ((tree.childrenOf ["type_spec"]).flatMap specEntries)
  else if tree.type = "method_declaration" then
    some ((receiver? tree).toList.flatMap fun owner => signatureEntries owner tree)
  else if tree.type = "function_declaration" then some []
  else none

end TypeAtlas.Go
