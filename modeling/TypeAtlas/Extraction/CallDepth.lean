import TypeAtlas.Extraction.Walk

/-!
# Reading with calls

Declarations that may be nested are read by calls within calls: one call for a declaration, another
one for the members that a node holds.  A stack has room for so many calls and no more; where it has
no more room, reading comes to an end, and what was read before is of no use.

All else is read without calls that grow with the tree: `Reading.walk` goes through a file with a
list of trees, and so do type expressions.  What calls need for themselves is left out of the count.
-/

namespace TypeAtlas

open Syntax

/-- What is read until there is no more room, in the order of the source, and whether it is all. -/
structure Reading where
  entries : List Entry := []
  isComplete : Bool := true

namespace Reading

/-- There is no room to begin with. -/
def overflow : Reading := ⟨[], false⟩

/-- One reading after the other, if the first one is complete. -/
def andThen (first next : Reading) : Reading :=
  if first.isComplete then ⟨first.entries ++ next.entries, next.isComplete⟩ else first

def all : List Reading → Reading
  | [] => {}
  | first :: rest => first.andThen (all rest)

/-- What is read in a list of trees, from the first tree to the last.  A tree is read as a whole, or
its children are looked at. -/
def walk (read : Tree → Option Reading) (pending : List Tree) : Reading :=
  match pending with
  | [] => {}
  | tree :: rest =>
    match read tree with
    | some own => own.andThen (walk read rest)
    | none => walk read (tree.children ++ rest)
termination_by Tree.sizeAll pending
decreasing_by
  · have hpos := tree.size_pos
    simp only [Tree.sizeAll]
    omega
  · have hsize := tree.size_eq
    simp only [Tree.sizeAll_append, Tree.sizeAll]
    omega

end Reading

/-- How a language reads declarations that may be nested. -/
structure NestedReader where
  name? : Tree → Option String
  /-- The entries of a declaration with some name, without its body. -/
  heading : String → Tree → List Entry
  /-- Whether a member is a declaration again. -/
  isNested : Tree → Bool
  /-- Whether a member holds further members of the same owner. -/
  holdsMembers : Tree → Bool
  /-- The entries of any other member. -/
  member : String → Tree → List Entry

namespace NestedReader

/-- A call that reads a part of a tree. -/
inductive Call where
  | declaration (tree : Tree)
  /-- The members that a node holds, for an owner. -/
  | members (owner : String) (tree : Tree)

/-- Something that a call does. -/
inductive Step where
  | entries (own : List Entry)
  | call (next : Call)

/-- What a call does, in order. -/
def steps (reader : NestedReader) : Call → List Step
  | .declaration tree =>
    (reader.name? tree).toList.flatMap fun name =>
      .entries (reader.heading name tree) ::
        (tree.field? "body").toList.map fun body => .call (.members name body)
  | .members owner tree =>
    tree.namedChildren.map fun child =>
      if reader.isNested child then .call (.declaration child)
      else if reader.holdsMembers child then .call (.members owner child)
      else .entries (reader.member owner child)

/-- What a call reads if there is room for so many calls, itself among them. -/
def read (reader : NestedReader) : Nat → Call → Reading
  | 0, _ => .overflow
  | room + 1, call =>
    .all ((reader.steps call).map fun
      | .entries own => { entries := own }
      | .call next => reader.read room next)

end NestedReader
end TypeAtlas
