import TypeAtlas.Syntax.Tree

/-!
# The names in a type expression

Which types a type expression refers to is a matter of a few rules per language: some nodes give a
name, some are opaque, some are looked into only in part, and all others are looked through.  A
`NameRule` says for one node which names it gives and where to look on.

`NameRule.gather` reads with a list of trees that still have to be looked at, so that the depth of
an expression does not matter.  `NameRule.collect` is the plain recursion.  The main statement,
`gather_eq_flatMap_collect`, says that both find the same names in the same order.
-/

namespace TypeAtlas

open Syntax

/-- What a node of a type expression gives: names, and trees to look at after it. -/
structure Finding where
  names : List String := []
  next : List Tree := []

/-- What each node of a type expression gives.  The trees to look at next lie inside the node,
without overlap. -/
structure NameRule where
  find : Tree → Finding
  next_lt : ∀ tree, Tree.sizeAll (find tree).next < tree.size

namespace NameRule

/-- The names in a list of trees, from the first tree to the last. -/
def gather (rule : NameRule) (pending : List Tree) : List String :=
  match pending with
  | [] => []
  | tree :: rest => (rule.find tree).names ++ rule.gather ((rule.find tree).next ++ rest)
termination_by Tree.sizeAll pending
decreasing_by
  have hnext := rule.next_lt tree
  simp only [Tree.sizeAll_append, Tree.sizeAll]
  omega

def namesIn (rule : NameRule) (tree : Tree) : List String := rule.gather [tree]

/-- The names in a type expression: those of the node itself, then those of the trees to look at. -/
def collect (rule : NameRule) (tree : Tree) : List String :=
  (rule.find tree).names ++
    (rule.find tree).next.attach.flatMap fun ⟨child, _⟩ => rule.collect child
termination_by tree.size
decreasing_by
  rename_i hmem
  exact Nat.lt_of_le_of_lt (Tree.size_le_sizeAll hmem) (rule.next_lt tree)

theorem collect_eq (rule : NameRule) (tree : Tree) :
    rule.collect tree = (rule.find tree).names ++ (rule.find tree).next.flatMap rule.collect := by
  rw [collect]
  simp

/-- Reading with a list of pending trees is reading one tree after the other. -/
theorem gather_eq_flatMap_collect (rule : NameRule) (pending : List Tree) :
    rule.gather pending = pending.flatMap rule.collect := by
  fun_induction rule.gather pending with
  | case1 => rfl
  | case2 tree rest ih => simp [ih, rule.collect_eq tree]

end NameRule
end TypeAtlas
