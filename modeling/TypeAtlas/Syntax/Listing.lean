import TypeAtlas.Syntax.Tree

/-!
# Trees as lists of rows

A tree can be listed row by row, every node after its parent: a row names its parent by position and
carries the label of its node.  `Listing.trees` puts the rows together again, from the last row to
the first, so that each row has collected its children before it becomes a child itself.
-/

namespace TypeAtlas.Syntax

/-- A node and the position of its parent's row; the root has none. -/
structure Row where
  parent : Option Nat
  label : Label
  deriving Repr

/-- A tree row by row, the root first. -/
abbrev Listing := List Row

namespace Listing

/-- The children that each position has so far, with one more tree in front of those of a parent. -/
def adopt (pending : Array (List Tree)) (parent : Option Nat) (tree : Tree) : Array (List Tree) :=
  match parent with
  | none => pending
  | some position => pending.modify position fun children => tree :: children

/-- One more row in front of those that are done: its tree has the children that wait for it. -/
def place (entry : Row × Nat) (done : Array (List Tree) × List Tree) :
    Array (List Tree) × List Tree :=
  let (row, position) := entry
  let (pending, trees) := done
  let tree := Tree.node row.label (pending[position]?.getD [])
  (adopt pending row.parent tree, tree :: trees)

def trees (rows : Listing) : List Tree :=
  (rows.zipIdx.foldr place (Array.replicate rows.length [], [])).2

def toTree? (rows : Listing) : Option Tree := rows.trees.head?

end Listing
end TypeAtlas.Syntax
