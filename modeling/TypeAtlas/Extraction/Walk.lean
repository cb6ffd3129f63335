import TypeAtlas.Extraction.Entry

/-!
# Walking through a file

A language says of a node either that it is a declaration, with the entries that it and all below it
contribute, or nothing: then its children are looked at.  `Visit.entries` walks with a list of trees
that are still to be visited, `Visit.entriesOf` by plain recursion.  The main statement,
`entries_eq_entriesBelow`, says that both give the same entries in the same order, the order of the
source.
-/

namespace TypeAtlas

open Syntax

/-- The entries of a node that a language reads as a whole. -/
abbrev Visit := Tree → Option (List Entry)

namespace Visit

/-- The entries in a list of trees, from the first tree to the last. -/
def entries (visit : Visit) (pending : List Tree) : List Entry :=
  match pending with
  | [] => []
  | tree :: rest =>
    match visit tree with
    | some own => own ++ entries visit rest
    | none => entries visit (tree.children ++ rest)
termination_by Tree.sizeAll pending
decreasing_by
  · have hpos := tree.size_pos
    simp only [Tree.sizeAll]
    omega
  · have hsize := tree.size_eq
    simp only [Tree.sizeAll_append, Tree.sizeAll]
    omega

mutual

/-- The entries in a tree: its own if it is read as a whole, else those of its children. -/
def entriesOf (visit : Visit) : Tree → List Entry
  | .node label children =>
    match visit (.node label children) with
    | some own => own
    | none => entriesBelow visit children

/-- The entries in a list of trees, one after the other. -/
def entriesBelow (visit : Visit) : List Tree → List Entry
  | [] => []
  | tree :: rest => entriesOf visit tree ++ entriesBelow visit rest

end

theorem entriesOf_eq (visit : Visit) (tree : Tree) :
    entriesOf visit tree = (visit tree).getD (entriesBelow visit tree.children) := by
  cases tree with
  | node label children =>
    rw [entriesOf]
    cases visit (.node label children) <;> rfl

theorem entriesBelow_append (visit : Visit) (trees more : List Tree) :
    entriesBelow visit (trees ++ more) = entriesBelow visit trees ++ entriesBelow visit more := by
  induction trees with
  | nil => rfl
  | cons tree trees ih => simp [entriesBelow, ih]

/-- Walking with a list of pending trees is walking one tree after the other. -/
theorem entries_eq_entriesBelow (visit : Visit) (pending : List Tree) :
    entries visit pending = entriesBelow visit pending := by
  fun_induction entries visit pending with
  | case1 => rfl
  | case2 tree rest own hown ih => simp [entriesBelow, entriesOf_eq, hown, ih]
  | case3 tree rest hnone ih => simp [entriesBelow, entriesOf_eq, hnone, ih, entriesBelow_append]

theorem entries_singleton (visit : Visit) (root : Tree) :
    entries visit [root] = entriesOf visit root := by
  rw [entries_eq_entriesBelow, entriesBelow, entriesBelow, List.append_nil]

end Visit

def Visit.fragment (visit : Visit) (builtins : List String) (root : Tree) (file : String) :
    Except ValidationReport Fragment :=
  (Builder.addAll ⟨file, builtins, [], []⟩ (visit.entries [root])).map Builder.build

end TypeAtlas
