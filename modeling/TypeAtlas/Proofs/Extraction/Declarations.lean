import Mathlib.Data.List.Basic
import Mathlib.Data.List.Induction
import TypeAtlas.Proofs.Extraction.Validity
import TypeAtlas.Proofs.Syntax.Positions

/-!
# Which declarations are taken

A `DeclarationRule` says what counts as a declaration in a language, at the outside and among the
members of another one, and what a declaration declares.  `DeclarationRule.Taken` says where in a tree
the declarations are that make up the nodes of a file.

What part a node plays depends on the way to it alone: `partAt` follows that way down from the root.
`partAt_eq_taken_iff` is the bridge between both, so it can be computed which declarations are taken,
and `declarationsIn` lists them.  Its equations, one for each part, are what the extraction of a
language is compared with.
-/

namespace TypeAtlas

open Syntax

/-- What is at a position is in the tree. -/
theorem Syntax.Tree.contains_of_at? {root tree : Tree} {position : List Nat}
    (htree : root.at? position = some tree) : root.Contains tree := by
  induction position generalizing root with
  | nil =>
      obtain rfl := Option.some.inj htree
      exact .self
  | cons index rest ih =>
      obtain ⟨child, hchild, htree⟩ := Option.bind_eq_some_iff.mp htree
      exact .of_child (List.mem_of_getElem? hchild) (ih htree)

/-- What counts as a declaration in a language. -/
structure DeclarationRule where
  /-- A declaration where there is none above. -/
  isDeclaration : Tree → Bool
  /-- A declaration among the members of another one. -/
  isNested : Tree → Bool
  /-- A member with further members of the same declaration. -/
  holdsMembers : Tree → Bool
  name? : Tree → Option String
  kind? : Tree → Option NodeKind
  /-- A declaration has members of its own. -/
  not_isNested : ∀ tree, holdsMembers tree = true → isNested tree = false

namespace DeclarationRule

variable (rule : DeclarationRule) (root : Tree)

/-- The declaration of a tree, if it has a name and declares anything. -/
def declaration? (tree : Tree) : Option Declaration :=
  (rule.name? tree).bind fun name =>
    (rule.kind? tree).map fun kind => ⟨name, kind, tree.startLine⟩

/-- The members of a declaration are the children of its body, the first child under that field, and
those of further nodes that hold members. -/
inductive Holds (owner : List Nat) : List Nat → Prop where
  | body {tree : Tree} {index : Nat} (htree : root.at? owner = some tree)
      (hbody : tree.children.findIdx? (Tree.isUnder "body") = some index) :
      Holds owner (owner ++ [index])
  | further {holder : List Nat} {index : Nat} {tree : Tree} (hholder : Holds owner holder)
      (htree : root.at? (holder ++ [index]) = some tree) (hnamed : tree.isNamed = true)
      (hmembers : rule.holdsMembers tree = true) : Holds owner (holder ++ [index])

/-- The declarations that are taken: those with no declaration above them, and those among the named
members of one that is taken.  Only what has a name is taken. -/
inductive Taken : List Nat → Prop where
  | outermost {position : List Nat} {tree : Tree} (htree : root.at? position = some tree)
      (hdeclaration : rule.isDeclaration tree = true) (hname : (rule.name? tree).isSome = true)
      (habove : ∀ above, above <+: position → above ≠ position →
        ∀ other, root.at? above = some other → rule.isDeclaration other = false) :
      Taken position
  | member {owner holder : List Nat} {index : Nat} {tree : Tree} (howner : Taken owner)
      (hholder : Holds rule root owner holder) (htree : root.at? (holder ++ [index]) = some tree)
      (hnamed : tree.isNamed = true) (hnested : rule.isNested tree = true)
      (hname : (rule.name? tree).isSome = true) : Taken (holder ++ [index])

/-- Only what has a name is taken. -/
theorem Taken.isSome_name? {rule : DeclarationRule} {root tree : Tree} {position : List Nat}
    (htaken : rule.Taken root position) (htree : root.at? position = some tree) :
    (rule.name? tree).isSome = true := by
  cases htaken with
  | outermost hat _ hname _ =>
      obtain rfl := Option.some.inj (hat.symm.trans htree)
      exact hname
  | member _ _ hat _ _ hname =>
      obtain rfl := Option.some.inj (hat.symm.trans htree)
      exact hname

end DeclarationRule

/-! ## The way down -/

/-- What part a node plays among the declarations of a file. -/
inductive Part where
  /-- There is no declaration above, and it is none. -/
  | outside
  /-- A declaration that is taken. -/
  | taken
  /-- Its children are members of a declaration that is taken. -/
  | members
  /-- It lies in a declaration, and no declaration below it is taken. -/
  | skipped
  deriving Repr, DecidableEq

namespace DeclarationRule

variable (rule : DeclarationRule) {root : Tree}

def partOfDeclaration (tree : Tree) : Part :=
  if (rule.name? tree).isSome then .taken else .skipped

def outerPart (tree : Tree) : Part :=
  if rule.isDeclaration tree then rule.partOfDeclaration tree else .outside

def memberPart (tree : Tree) : Part :=
  if !tree.isNamed then .skipped
  else if rule.isNested tree then rule.partOfDeclaration tree
  else if rule.holdsMembers tree then .members
  else .skipped

/-- The part of a child, from that of its parent. -/
def childPart (part : Part) (parent : Tree) (index : Nat) (child : Tree) : Part :=
  match part with
  | .outside => rule.outerPart child
  | .taken =>
    if parent.children.findIdx? (Tree.isUnder "body") = some index then .members else .skipped
  | .members => rule.memberPart child
  | .skipped => .skipped

/-- The part that a position below a tree with some part has. -/
def partBelow (part : Part) (tree : Tree) : List Nat → Part
  | [] => part
  | index :: rest =>
    match tree.children[index]? with
    | none => .skipped
    | some child => partBelow (rule.childPart part tree index child) child rest

def partAt (root : Tree) (position : List Nat) : Part :=
  rule.partBelow (rule.outerPart root) root position

theorem partBelow_append {tree below : Tree} {position : List Nat} (part : Part)
    (hbelow : tree.at? position = some below) (rest : List Nat) :
    rule.partBelow part tree (position ++ rest) =
      rule.partBelow (rule.partBelow part tree position) below rest := by
  induction position generalizing tree part with
  | nil =>
      obtain rfl := Option.some.inj hbelow
      rfl
  | cons index position ih =>
      obtain ⟨child, hchild, hbelow⟩ := Option.bind_eq_some_iff.mp hbelow
      simp only [List.cons_append, partBelow, hchild]
      exact ih _ hbelow

/-- One step down. -/
theorem partAt_append_singleton {parent child : Tree} {position : List Nat} {index : Nat}
    (hparent : root.at? position = some parent) (hchild : parent.children[index]? = some child) :
    rule.partAt root (position ++ [index]) =
      rule.childPart (rule.partAt root position) parent index child := by
  rw [partAt, rule.partBelow_append _ hparent, partBelow, hchild]
  rfl

/-- Where there is no node, nothing is taken. -/
theorem partBelow_of_at?_eq_none {tree : Tree} {position : List Nat} (part : Part)
    (hposition : tree.at? position = none) : rule.partBelow part tree position = .skipped := by
  induction position generalizing tree part with
  | nil => cases hposition
  | cons index position ih =>
      rw [partBelow]
      cases hchild : tree.children[index]? with
      | none => rfl
      | some child =>
          rw [Tree.at?_cons, hchild] at hposition
          exact ih _ hposition

/-! ### Parts as they are -/

variable {rule} {position : List Nat} {tree : Tree}

/-- No node on the way to a position is a declaration. -/
def IsOutside (rule : DeclarationRule) (root : Tree) (position : List Nat) : Prop :=
  ∀ above, above <+: position → ∀ tree, root.at? above = some tree → rule.isDeclaration tree = false

/-- What it means for a position to have some part. -/
def Fits (rule : DeclarationRule) (root : Tree) (position : List Nat) : Part → Prop
  | .outside => rule.IsOutside root position
  | .taken => rule.Taken root position
  | .members => ∃ owner, rule.Taken root owner ∧ rule.Holds root owner position
  | .skipped => True

theorem fits_outerPart (htree : root.at? position = some tree)
    (habove : ∀ above, above <+: position → above ≠ position →
      ∀ other, root.at? above = some other → rule.isDeclaration other = false) :
    rule.Fits root position (rule.outerPart tree) := by
  rw [outerPart]
  split
  case isTrue hdeclaration =>
    rw [partOfDeclaration]
    split
    case isTrue hname => exact .outermost htree hdeclaration hname habove
    case isFalse => trivial
  case isFalse hdeclaration =>
    intro above hway other hother
    by_cases heq : above = position
    · subst heq
      rw [htree] at hother
      obtain rfl := Option.some.inj hother
      exact Bool.eq_false_iff.mpr hdeclaration
    · exact habove above hway heq other hother

theorem fits_memberPart {owner holder : List Nat} {index : Nat} (howner : rule.Taken root owner)
    (hholder : rule.Holds root owner holder) (htree : root.at? (holder ++ [index]) = some tree) :
    rule.Fits root (holder ++ [index]) (rule.memberPart tree) := by
  rw [memberPart]
  split
  case isTrue => trivial
  case isFalse hnamed =>
  have hnamed : tree.isNamed = true := by simpa using hnamed
  split
  case isTrue hnested =>
    rw [partOfDeclaration]
    split
    case isTrue hname => exact .member howner hholder htree hnamed hnested hname
    case isFalse => trivial
  split
  case isTrue hmembers => exact ⟨owner, howner, .further hholder htree hnamed hmembers⟩
  case isFalse => trivial

/-- The part of a child fits if that of its parent does. -/
theorem fits_childPart {parent child : Tree} {index : Nat} {part : Part}
    (hpart : rule.Fits root position part) (hparent : root.at? position = some parent)
    (hchild : parent.children[index]? = some child) :
    rule.Fits root (position ++ [index]) (rule.childPart part parent index child) := by
  have htree : root.at? (position ++ [index]) = some child :=
    Tree.at?_append_singleton_eq_some_iff.mpr ⟨parent, hparent, hchild⟩
  cases part with
  | outside =>
      apply fits_outerPart htree
      intro above hway hne other hother
      rcases List.prefix_concat_iff.mp hway with heq | hway
      · exact absurd heq hne
      · exact hpart above hway other hother
  | taken =>
      rw [childPart]
      split
      case isTrue hbody => exact ⟨position, hpart, .body hparent hbody⟩
      case isFalse => trivial
  | members =>
      obtain ⟨owner, howner, hholder⟩ := hpart
      exact fits_memberPart howner hholder htree
  | skipped => trivial

/-- Every position has the part that it comes to have on the way down. -/
theorem fits_partAt (rule : DeclarationRule) (htree : root.at? position = some tree) :
    rule.Fits root position (rule.partAt root position) := by
  induction position using List.reverseRec generalizing tree with
  | nil =>
      obtain rfl := Option.some.inj htree
      apply fits_outerPart htree
      intro above hway hne
      exact absurd (List.prefix_nil.mp hway) hne
  | append_singleton position index ih =>
      obtain ⟨parent, hparent, hchild⟩ := Tree.at?_append_singleton_eq_some_iff.mp htree
      rw [rule.partAt_append_singleton hparent hchild]
      exact fits_childPart (ih hparent) hparent hchild

/-! ### And nothing else -/

theorem partAt_of_isOutside (houtside : rule.IsOutside root position)
    (htree : root.at? position = some tree) : rule.partAt root position = .outside := by
  have hdeclaration := houtside position (List.prefix_refl position) tree htree
  induction position using List.reverseRec generalizing tree with
  | nil =>
      obtain rfl := Option.some.inj htree
      rw [partAt, partBelow, outerPart, hdeclaration]
      rfl
  | append_singleton position index ih =>
      obtain ⟨parent, hparent, hchild⟩ := Tree.at?_append_singleton_eq_some_iff.mp htree
      have habove : rule.IsOutside root position := by
        intro above hway
        exact houtside above (hway.trans (List.prefix_append position [index]))
      have hparentPart := ih habove hparent (habove position (List.prefix_refl position) parent hparent)
      rw [rule.partAt_append_singleton hparent hchild, hparentPart, childPart, outerPart, hdeclaration]
      rfl

/-- An outermost declaration is come to from the outside. -/
theorem partAt_of_above (htree : root.at? position = some tree)
    (habove : ∀ above, above <+: position → above ≠ position →
      ∀ other, root.at? above = some other → rule.isDeclaration other = false) :
    rule.partAt root position = rule.outerPart tree := by
  induction position using List.reverseRec with
  | nil =>
      obtain rfl := Option.some.inj htree
      rfl
  | append_singleton position index _ =>
      obtain ⟨parent, hparent, hchild⟩ := Tree.at?_append_singleton_eq_some_iff.mp htree
      have houtside : rule.IsOutside root position := by
        intro above hway
        apply habove above (hway.trans (List.prefix_append position [index]))
        rintro rfl
        have hlength := hway.length_le
        rw [List.length_append, List.length_singleton] at hlength
        omega
      rw [rule.partAt_append_singleton hparent hchild, partAt_of_isOutside houtside hparent, childPart]

theorem partAt_of_holds {owner holder : List Nat} (howner : rule.partAt root owner = .taken)
    (hholder : rule.Holds root owner holder) : rule.partAt root holder = .members := by
  induction hholder with
  | @body tree index htree hbody =>
      obtain ⟨hlt, -, -⟩ := List.findIdx?_eq_some_iff_getElem.mp hbody
      rw [rule.partAt_append_singleton htree (List.getElem?_eq_getElem hlt), howner, childPart,
        if_pos hbody]
  | @further holder index tree hholder htree hnamed hmembers ih =>
      obtain ⟨parent, hparent, hchild⟩ := Tree.at?_append_singleton_eq_some_iff.mp htree
      rw [rule.partAt_append_singleton hparent hchild, ih, childPart, memberPart, hnamed,
        rule.not_isNested tree hmembers, hmembers]
      rfl

theorem partAt_of_taken (htaken : rule.Taken root position) :
    rule.partAt root position = .taken := by
  induction htaken with
  | @outermost position tree htree hdeclaration hname habove =>
      rw [partAt_of_above htree habove, outerPart, hdeclaration, partOfDeclaration, hname]
      rfl
  | @member owner holder index tree _ hholder htree hnamed hnested hname ih =>
      obtain ⟨parent, hparent, hchild⟩ := Tree.at?_append_singleton_eq_some_iff.mp htree
      rw [rule.partAt_append_singleton hparent hchild, partAt_of_holds ih hholder, childPart,
        memberPart, hnamed, hnested, partOfDeclaration, hname]
      rfl

/-- **What is taken is found on the way down.** -/
theorem partAt_eq_taken_iff : rule.partAt root position = .taken ↔ rule.Taken root position := by
  refine ⟨fun hpart => ?_, partAt_of_taken⟩
  cases htree : root.at? position with
  | none =>
      rw [partAt, rule.partBelow_of_at?_eq_none _ htree] at hpart
      cases hpart
  | some tree =>
      have hfits := fits_partAt rule htree
      rwa [hpart] at hfits

instance (position : List Nat) : Decidable (rule.Taken root position) :=
  decidable_of_iff _ partAt_eq_taken_iff

/-! ## All that is taken -/

/-- The positions that are taken in a file, in pre-order. -/
def takenIn (rule : DeclarationRule) (root : Tree) : List (List Nat) :=
  root.positions.filter fun position => rule.Taken root position

theorem mem_takenIn_iff : position ∈ rule.takenIn root ↔ rule.Taken root position := by
  rw [takenIn, List.mem_filter, decide_eq_true_iff, and_iff_right_iff_imp, Tree.mem_positions_iff]
  intro htaken
  cases htaken with
  | outermost htree => exact ⟨_, htree⟩
  | member _ _ htree => exact ⟨_, htree⟩

theorem pairwise_takenIn (rule : DeclarationRule) (root : Tree) :
    (rule.takenIn root).Pairwise (· < ·) :=
  root.pairwise_positions.filter _

/-- The declarations in a file: those of the nodes that are taken. -/
def declarationsIn (rule : DeclarationRule) (root : Tree) : List Declaration :=
  (rule.takenIn root).filterMap fun position => (root.at? position).bind rule.declaration?

/-- The declarations that are taken in a tree with some part. -/
def declarationsBelow (rule : DeclarationRule) (part : Part) (tree : Tree) : List Declaration :=
  (tree.positions.filter fun position => rule.partBelow part tree position = .taken).filterMap
    fun position => (tree.at? position).bind rule.declaration?

theorem declarationsIn_eq (rule : DeclarationRule) (root : Tree) :
    rule.declarationsIn root = rule.declarationsBelow (rule.outerPart root) root := by
  have htaken : ∀ position, decide (rule.Taken root position) =
      decide (rule.partBelow (rule.outerPart root) root position = .taken) := by
    intro position
    exact decide_eq_decide.mpr partAt_eq_taken_iff.symm
  simp only [declarationsIn, takenIn, declarationsBelow, htaken]

theorem declarationsBelow_eq (rule : DeclarationRule) (part : Part) (tree : Tree) :
    rule.declarationsBelow part tree =
      (if part = .taken then (rule.declaration? tree).toList else []) ++
        tree.children.zipIdx.flatMap fun entry =>
          rule.declarationsBelow (rule.childPart part tree entry.2 entry.1) entry.1 := by
  rw [declarationsBelow, List.filterMap_filter, Tree.filterMap_positions]
  congr 1
  · cases part <;> rfl
  · apply List.flatMap_congr
    intro entry hentry
    have hchild := List.mem_zipIdx_iff_getElem?.mp hentry
    rw [declarationsBelow, List.filterMap_filter]
    simp only [partBelow, hchild, Tree.at?_cons, Option.bind_some]

@[simp] theorem declarationsBelow_skipped (rule : DeclarationRule) (tree : Tree) :
    rule.declarationsBelow .skipped tree = [] := by
  have hskipped : ∀ position (tree : Tree), rule.partBelow .skipped tree position = .skipped := by
    intro position
    induction position with
    | nil => exact fun _ => rfl
    | cons index position ih =>
        intro tree
        rw [partBelow]
        cases tree.children[index]? with
        | none => rfl
        | some child => exact ih child
  simp [declarationsBelow, hskipped]

theorem declarationsBelow_outside (rule : DeclarationRule) (tree : Tree) :
    rule.declarationsBelow .outside tree =
      tree.children.flatMap fun child => rule.declarationsBelow (rule.outerPart child) child := by
  rw [declarationsBelow_eq, if_neg nofun, List.nil_append]
  exact flatMap_zipIdx_fst tree.children 0 fun child =>
    rule.declarationsBelow (rule.outerPart child) child

theorem declarationsBelow_members (rule : DeclarationRule) (tree : Tree) :
    rule.declarationsBelow .members tree =
      tree.children.flatMap fun child => rule.declarationsBelow (rule.memberPart child) child := by
  rw [declarationsBelow_eq, if_neg nofun, List.nil_append]
  exact flatMap_zipIdx_fst tree.children 0 fun child =>
    rule.declarationsBelow (rule.memberPart child) child

/-- A declaration that is taken gives its own, and what is taken among its members. -/
theorem declarationsBelow_taken (rule : DeclarationRule) (tree : Tree) :
    rule.declarationsBelow .taken tree = (rule.declaration? tree).toList ++
      (tree.field? "body").toList.flatMap (rule.declarationsBelow .members) := by
  have hbody := flatMap_zipIdx_findIdx? tree.children (Tree.isUnder "body") 0
    (rule.declarationsBelow .members)
  rw [declarationsBelow_eq, if_pos rfl, Tree.field?, ← hbody]
  congr 2
  funext entry
  rw [childPart]
  simp only [Nat.add_zero, Option.map_id']
  split
  · rfl
  · exact rule.declarationsBelow_skipped entry.1

/-- Nothing in a declaration without a name is taken. -/
theorem declarationsBelow_of_name?_eq_none (hname : rule.name? tree = none) :
    rule.declarationsBelow (rule.partOfDeclaration tree) tree = [] := by
  rw [partOfDeclaration, hname]
  exact rule.declarationsBelow_skipped tree

theorem declarationsBelow_of_name?_eq_some {name : String} (hname : rule.name? tree = some name) :
    rule.declarationsBelow (rule.partOfDeclaration tree) tree =
      ((rule.kind? tree).map fun kind => ⟨name, kind, tree.startLine⟩).toList ++
        (tree.field? "body").toList.flatMap (rule.declarationsBelow .members) := by
  have hpart : rule.partOfDeclaration tree = .taken := by
    rw [partOfDeclaration, hname]
    rfl
  rw [hpart, rule.declarationsBelow_taken, declaration?, hname, Option.bind_some]

end DeclarationRule
end TypeAtlas
