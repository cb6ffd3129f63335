import TypeAtlas.Text.Quoted
import TypeAtlas.Text.Utf8

/-!
# Syntax trees

A tree is a label over a list of trees.  The label carries what a grammar says of a node: its type,
whether it is named or just a token, the fields under which its parent holds it, its text and the
row where it starts.  Trees may be the result of error recovery, so nothing is assumed of them:
fields may be missing or repeated, texts may be absent or cut in the middle of a character, rows may
be negative.

Everything that the rest of the library asks of a tree is here: its text, its children by position,
type and field.
-/

namespace TypeAtlas.Syntax

/-- The text of a node as the grammar gives it. -/
inductive RawText where
  | absent
  | plain (text : String)
  | encoded (octets : List UInt8)
  deriving Repr, DecidableEq

/-- The octets of a source from one offset up to another. -/
def RawText.span (source : String) (start stop : Nat) : RawText :=
  .encoded (((Utf8.encode source).take stop).drop start)

def RawText.decode : RawText → String
  | .absent => ""
  | .plain text => text
  | .encoded octets => Utf8.decodeLossy octets

/-- What a grammar says of one node.  `id` tells apart nodes that are alike. -/
structure Label where
  id : Nat := 0
  type : String
  named : Bool := true
  hasError : Bool := false
  fields : List String := []
  raw : RawText := .absent
  row : Int := 0
  deriving Repr, DecidableEq

/-- A syntax tree. -/
inductive Tree where
  | node (label : Label) (children : List Tree)
  deriving Repr

namespace Tree

def label : Tree → Label
  | node label _ => label

/-- The subtrees right below the root, in source order. -/
def children : Tree → List Tree
  | node _ children => children

def type (tree : Tree) : String := tree.label.type

def isNamed (tree : Tree) : Bool := tree.label.named

def hasError (tree : Tree) : Bool := tree.label.hasError

def text (tree : Tree) : String := tree.label.raw.decode

/-- The line where the tree starts, the first line being one. -/
def startLine (tree : Tree) : Int := tree.label.row + 1

section Node

variable (label : Label) (children : List Tree)

@[simp] theorem label_node : (node label children).label = label := rfl

@[simp] theorem children_node : (node label children).children = children := rfl

@[simp] theorem type_node : (node label children).type = label.type := rfl

@[simp] theorem isNamed_node : (node label children).isNamed = label.named := rfl

@[simp] theorem text_node : (node label children).text = label.raw.decode := rfl

end Node

def namedChildren (tree : Tree) : List Tree := tree.children.filter isNamed

def child? (tree : Tree) (index : Int) : Option Tree :=
  if index < 0 then none else tree.children[index.toNat]?

/-- Whether the parent of the tree holds it under a field. -/
def isUnder (name : String) (tree : Tree) : Bool := tree.label.fields.contains name

/-- The first child under a field. -/
def field? (tree : Tree) (name : String) : Option Tree :=
  tree.children.find? (isUnder name)

def fields (tree : Tree) (name : String) : List Tree :=
  tree.children.filter (isUnder name)

def childrenOf (tree : Tree) (types : List String) : List Tree :=
  tree.children.filter fun child => types.contains child.type

/-- The first child of one of some types. -/
def findChild? (tree : Tree) (types : List String) : Option Tree :=
  tree.children.find? fun child => types.contains child.type

def hasToken (tree : Tree) (token : String) : Bool :=
  tree.children.any fun child => !child.isNamed && child.text == token

/-- The last child that is more than a token. -/
def lastNamedChild? (tree : Tree) : Option Tree := tree.namedChildren.getLast?

def describe (tree : Tree) : String :=
  "SyntaxNode(type=" ++ Text.quote tree.type ++ ", line=" ++ toString tree.startLine ++ ")"

/-! ## Size -/

mutual

def size : Tree → Nat
  | node _ children => 1 + sizeAll children

def sizeAll : List Tree → Nat
  | [] => 0
  | tree :: trees => tree.size + sizeAll trees

end

theorem size_pos (tree : Tree) : 0 < tree.size := by
  cases tree with
  | node label children => simp only [size]; omega

theorem size_eq (tree : Tree) : tree.size = 1 + sizeAll tree.children := by
  cases tree with
  | node label children => rfl

theorem sizeAll_append (trees more : List Tree) :
    sizeAll (trees ++ more) = sizeAll trees + sizeAll more := by
  induction trees with
  | nil => simp [sizeAll]
  | cons tree trees ih => simp only [List.cons_append, sizeAll, ih]; omega

theorem size_le_sizeAll {tree : Tree} {trees : List Tree} (hmem : tree ∈ trees) :
    tree.size ≤ sizeAll trees := by
  induction trees with
  | nil => cases hmem
  | cons first rest ih =>
    simp only [sizeAll]
    cases hmem with
    | head => omega
    | tail _ hrest => have := ih hrest; omega

theorem sizeAll_le_of_sublist {trees more : List Tree} (hsub : trees.Sublist more) :
    sizeAll trees ≤ sizeAll more := by
  induction hsub with
  | slnil => exact Nat.le_refl _
  | cons tree _ ih => simp only [sizeAll]; omega
  | cons_cons tree _ ih => simp only [sizeAll]; omega

theorem sizeAll_children_lt (tree : Tree) : sizeAll tree.children < tree.size := by
  rw [size_eq]
  omega

theorem size_lt_of_mem {tree child : Tree} (hchild : child ∈ tree.children) :
    child.size < tree.size :=
  Nat.lt_of_le_of_lt (size_le_sizeAll hchild) tree.sizeAll_children_lt

theorem sizeAll_flatMap_le {expand : Tree → List Tree}
    (hexpand : ∀ tree, sizeAll (expand tree) ≤ tree.size) (trees : List Tree) :
    sizeAll (trees.flatMap expand) ≤ sizeAll trees := by
  induction trees with
  | nil => exact Nat.le_refl _
  | cons tree trees ih =>
    have hfirst := hexpand tree
    simp only [List.flatMap_cons, sizeAll_append, sizeAll]
    omega

theorem sizeAll_childrenOf_lt (tree : Tree) (types : List String) :
    sizeAll (tree.childrenOf types) < tree.size :=
  Nat.lt_of_le_of_lt (sizeAll_le_of_sublist List.filter_sublist) (sizeAll_children_lt tree)

theorem sizeAll_findChild?_le (tree : Tree) (types : List String) :
    sizeAll (tree.findChild? types).toList ≤ tree.size := by
  cases hfound : tree.findChild? types with
  | none => exact Nat.zero_le _
  | some child =>
    have hmem : child ∈ tree.children := List.mem_of_find?_eq_some hfound
    have hchild := size_le_sizeAll hmem
    have hall := sizeAll_children_lt tree
    simp only [Option.toList, sizeAll]
    omega

theorem sizeAll_reverse (trees : List Tree) : sizeAll trees.reverse = sizeAll trees := by
  induction trees with
  | nil => rfl
  | cons tree trees ih =>
    simp only [List.reverse_cons, sizeAll_append, sizeAll, ih]
    omega

end Tree
end TypeAtlas.Syntax
