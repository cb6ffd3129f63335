import Mathlib.Data.List.Basic
import TypeAtlas.Proofs.Syntax.Positions

/-!
# Trees without some of their texts

`Tree.erase` takes the texts from the nodes whose labels are hidden, and leaves everything else as it
is.  So whatever is asked of a tree in terms of types, fields and positions commutes with it, and a
reader that does not ask for hidden texts has the same answer for all trees with the same erasure.
-/

namespace TypeAtlas.Syntax

/-- A label without its text, if it is hidden. -/
def Label.erase (hidden : Label → Bool) (label : Label) : Label :=
  if hidden label then { label with raw := .absent } else label

section Label

variable (hidden : Label → Bool) (label : Label)

@[simp] theorem Label.type_erase : (label.erase hidden).type = label.type := by
  unfold erase
  split <;> rfl

@[simp] theorem Label.named_erase : (label.erase hidden).named = label.named := by
  unfold erase
  split <;> rfl

@[simp] theorem Label.fields_erase : (label.erase hidden).fields = label.fields := by
  unfold erase
  split <;> rfl

@[simp] theorem Label.row_erase : (label.erase hidden).row = label.row := by
  unfold erase
  split <;> rfl

theorem Label.erase_of_seen {label : Label} (hseen : hidden label = false) :
    label.erase hidden = label := by
  rw [erase, hseen]
  rfl

end Label

namespace Tree

mutual

def erase (hidden : Label → Bool) : Tree → Tree
  | node label children => node (label.erase hidden) (eraseAll hidden children)

def eraseAll (hidden : Label → Bool) : List Tree → List Tree
  | [] => []
  | tree :: rest => tree.erase hidden :: eraseAll hidden rest

end

variable (hidden : Label → Bool)

theorem eraseAll_eq_map (trees : List Tree) : eraseAll hidden trees = trees.map (erase hidden) := by
  induction trees with
  | nil => rfl
  | cons tree rest ih => rw [eraseAll, ih, List.map_cons]

theorem erase_node (label : Label) (children : List Tree) :
    (node label children).erase hidden = node (label.erase hidden) (children.map (erase hidden)) := by
  rw [erase, eraseAll_eq_map]

section Query

variable (tree : Tree)

@[simp] theorem label_erase : (tree.erase hidden).label = tree.label.erase hidden := by
  cases tree with
  | node label children => rw [erase_node]; rfl

@[simp] theorem children_erase :
    (tree.erase hidden).children = tree.children.map (erase hidden) := by
  cases tree with
  | node label children => rw [erase_node]; rfl

@[simp] theorem type_erase : (tree.erase hidden).type = tree.type := by
  rw [type, label_erase, Label.type_erase, type]

@[simp] theorem isNamed_erase : (tree.erase hidden).isNamed = tree.isNamed := by
  rw [isNamed, label_erase, Label.named_erase, isNamed]

@[simp] theorem startLine_erase : (tree.erase hidden).startLine = tree.startLine := by
  rw [startLine, label_erase, Label.row_erase, startLine]

@[simp] theorem isUnder_erase (name : String) :
    (tree.erase hidden).isUnder name = tree.isUnder name := by
  rw [isUnder, label_erase, Label.fields_erase, isUnder]

theorem text_erase {tree : Tree} (hseen : hidden tree.label = false) :
    (tree.erase hidden).text = tree.text := by
  rw [text, label_erase, Label.erase_of_seen hidden hseen, text]

variable {suits : Tree → Bool} (trees : List Tree)

theorem find?_map_erase (hsuits : ∀ tree, suits (erase hidden tree) = suits tree) :
    (trees.map (erase hidden)).find? suits = (trees.find? suits).map (erase hidden) := by
  have hsame : suits ∘ erase hidden = suits := funext hsuits
  rw [List.find?_map, hsame]

theorem filter_map_erase (hsuits : ∀ tree, suits (erase hidden tree) = suits tree) :
    (trees.map (erase hidden)).filter suits = (trees.filter suits).map (erase hidden) := by
  rw [List.filter_map]
  exact congrArg _ (List.filter_congr fun tree _ => hsuits tree)

theorem field?_erase (name : String) :
    (tree.erase hidden).field? name = (tree.field? name).map (erase hidden) := by
  rw [field?, children_erase]
  exact find?_map_erase hidden _ fun child => child.isUnder_erase hidden name

theorem findChild?_erase (types : List String) :
    (tree.erase hidden).findChild? types = (tree.findChild? types).map (erase hidden) := by
  rw [findChild?, children_erase]
  exact find?_map_erase hidden _ fun child => by rw [type_erase]

theorem childrenOf_erase (types : List String) :
    (tree.erase hidden).childrenOf types = (tree.childrenOf types).map (erase hidden) := by
  rw [childrenOf, children_erase]
  exact filter_map_erase hidden _ fun child => by rw [type_erase]

theorem namedChildren_erase :
    (tree.erase hidden).namedChildren = tree.namedChildren.map (erase hidden) := by
  rw [namedChildren, children_erase]
  exact filter_map_erase hidden _ (isNamed_erase hidden)

end Query

/-! ## Positions -/

theorem at?_erase (tree : Tree) (position : List Nat) :
    (tree.erase hidden).at? position = (tree.at? position).map (erase hidden) := by
  induction position generalizing tree with
  | nil => rfl
  | cons index rest ih =>
      rw [at?_cons, at?_cons, children_erase, List.getElem?_map]
      cases tree.children[index]? with
      | none => rfl
      | some child => exact ih child

mutual

theorem positions_erase : ∀ tree : Tree, (tree.erase hidden).positions = tree.positions
  | node label children => by
      rw [erase, positions, positions, positionsBelow_eraseAll]

theorem positionsBelow_eraseAll (index : Nat) : ∀ trees : List Tree,
    positionsBelow index (eraseAll hidden trees) = positionsBelow index trees
  | [] => rfl
  | tree :: rest => by
      rw [eraseAll, positionsBelow, positionsBelow, positions_erase tree,
        positionsBelow_eraseAll (index + 1) rest]

end

end Tree
end TypeAtlas.Syntax
