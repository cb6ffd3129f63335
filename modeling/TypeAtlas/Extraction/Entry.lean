import TypeAtlas.Extraction.Builder
import TypeAtlas.Extraction.TypeNames
import TypeAtlas.Text.Blank
import TypeAtlas.Text.Lines

/-!
# What a declaration contributes

Reading a declaration gives entries: that a type is declared in some row, or that a declared type
refers to some names.  `Builder.addAll` turns entries into the nodes and edges of a file; it stops
at the first one that is not valid.
-/

namespace TypeAtlas

open Syntax

/-- Something that a declaration says. -/
inductive Entry where
  /-- A type is declared in a row, the first row being zero. -/
  | declared (name : String) (kind : NodeKind) (row : Int)
  /-- A declared type refers to names. -/
  | refers (owner : String) (names : List String) (kind : EdgeKind)
  deriving Repr, DecidableEq

def Builder.add (builder : Builder) : Entry → Except ValidationReport Builder
  | .declared name kind row => builder.addNode name kind.name row
  | .refers owner names kind =>
    match builder.addEdges owner names kind.name with
    | (extended, .ok ()) => .ok extended
    | (_, .error report) => .error report

def Builder.addAll (builder : Builder) : List Entry → Except ValidationReport Builder
  | [] => .ok builder
  | entry :: rest =>
    match builder.add entry with
    | .ok extended => extended.addAll rest
    | .error report => .error report

/-- The name of a declaration: the text of its first child under the field `name`, if it is not
blank. -/
def declaredName? (declaration : Tree) : Option String :=
  match declaration.field? "name" with
  | none => none
  | some child =>
    let name := Text.trim child.text
    if name = "" then none else some name

def references (rule : NameRule) (owner : String) (kind : EdgeKind) (expression : Option Tree) :
    List Entry :=
  expression.toList.map fun tree => .refers owner (rule.namesIn tree) kind

end TypeAtlas
