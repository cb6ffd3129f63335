import TypeAtlas.Extraction.Walk

/-!
# TypeScript declarations

Classes, interfaces, enumerations and type aliases.  A class refers to what it extends and
implements, to the types of its fields, and to the parameters and results of its methods; an
interface likewise; an alias extends the types of its value.

What a class extends is an expression, so plain identifiers and the property at the end of a member
expression are names there, and only there.
-/

namespace TypeAtlas.TypeScript

open Syntax

def builtins : List String :=
  ["string", "number", "boolean", "bigint", "symbol", "object", "any", "unknown", "never", "void",
    "undefined", "null", "String", "Number", "Boolean", "BigInt", "Symbol", "Object"]

/-- The grammar for a file: files with markup have one of their own. -/
def grammarFor (file : String) : String :=
  if Text.endsWith file ".tsx" then "tsx" else "typescript"

/-! ## Type expressions -/

/-- Nodes of a type expression in which no declared type is named. -/
def closedTypes : List String :=
  ["predefined_type", "literal_type", "string", "number", "template_literal_type", "this_type"]

/-- What a node of a type expression gives.  A qualified name gives its last segment. -/
def find (inExpression : Bool) (tree : Tree) : Finding :=
  if tree.type = "type_identifier" then ⟨[tree.text], []⟩
  else if tree.type = "identifier" then ⟨if inExpression then [tree.text] else [], []⟩
  else if tree.type = "nested_type_identifier" then
    ⟨((tree.field? "name").or tree.lastNamedChild?).toList.map Tree.text, []⟩
  else if tree.type = "member_expression" ∧ inExpression then
    ⟨(tree.field? "property").toList.map Tree.text, []⟩
  else if closedTypes.contains tree.type then ⟨[], []⟩
  else ⟨[], tree.children⟩

theorem next_find_lt (inExpression : Bool) (tree : Tree) :
    Tree.sizeAll (find inExpression tree).next < tree.size := by
  have hchildren := tree.sizeAll_children_lt
  have hpos := tree.size_pos
  unfold find
  repeat' split
  all_goals first | exact hchildren | exact hpos

def typeRule : NameRule := ⟨find false, next_find_lt false⟩

def expressionRule : NameRule := ⟨find true, next_find_lt true⟩

/-! ## Declarations -/

/-- The references of one clause of a declaration's heading. -/
def headingEntries (owner : String) (clause : Tree) : List Entry :=
  if clause.type = "extends_clause" then
    [.refers owner (expressionRule.namesIn clause) .extension]
  else if clause.type = "extends_type_clause" then
    [.refers owner (typeRule.namesIn clause) .extension]
  else if clause.type = "implements_clause" then
    [.refers owner (typeRule.namesIn clause) .implementation]
  else []

def fieldMembers : List String :=
  ["public_field_definition", "property_definition", "field_definition", "property_signature"]

def methodMembers : List String :=
  ["method_definition", "method_signature", "abstract_method_signature"]

def parameterTypes : List String := ["required_parameter", "optional_parameter"]

def parameterEntries (owner : String) (parameters : Tree) : List Entry :=
  (parameters.namedChildren.filter fun parameter => parameterTypes.contains parameter.type).flatMap
    fun parameter => references typeRule owner .methodParam (parameter.field? "type")

def memberEntries (owner : String) (member : Tree) : List Entry :=
  if fieldMembers.contains member.type then
    references typeRule owner .fieldType (member.field? "type")
  else if methodMembers.contains member.type then
    (member.field? "parameters").toList.flatMap (parameterEntries owner) ++
      references typeRule owner .methodReturn (member.field? "return_type")
  else []

/-- The references in the heading of a class or an interface. -/
def heritageEntries (owner : String) (child : Tree) : List Entry :=
  if child.type = "class_heritage" then child.children.flatMap (headingEntries owner)
  else headingEntries owner child

def classEntries (kind : NodeKind) (tree : Tree) : List Entry :=
  match declaredName? tree with
  | none => []
  | some name =>
    .declared name kind tree.label.row ::
      (tree.children.flatMap (heritageEntries name) ++
        (tree.field? "body").toList.flatMap fun body =>
          body.namedChildren.flatMap (memberEntries name))

def aliasEntries (tree : Tree) : List Entry :=
  match declaredName? tree with
  | none => []
  | some name =>
    .declared name .typeAlias tree.label.row ::
      references typeRule name .extension (tree.field? "value")

def enumEntries (tree : Tree) : List Entry :=
  (declaredName? tree).toList.map fun name => .declared name .enumType tree.label.row

def visit : Visit := fun tree =>
  if tree.type = "class_declaration" ∨ tree.type = "abstract_class_declaration" then
    some (classEntries .classType tree)
  else if tree.type = "interface_declaration" then some (classEntries .interfaceType tree)
  else if tree.type = "type_alias_declaration" then some (aliasEntries tree)
  else if tree.type = "enum_declaration" then some (enumEntries tree)
  else none

end TypeAtlas.TypeScript
