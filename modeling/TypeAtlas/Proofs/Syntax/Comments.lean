import Mathlib.Data.List.Forall2
import TypeAtlas.Syntax.Tree

/-!
# Comments in trees

A grammar may put comments between any two children of any node.  `Interspersed` says that some trees
are others with comments put among them and below them, wherever and however many; a tree with comments
below it is `Commented`.

What is asked of a tree hardly ever depends on its comments, since these are under no field and of no
type that is looked for: `IgnoresComments`.
-/

namespace TypeAtlas.Syntax.Tree

/-- A comment: a named node with nothing below it, which its parent holds under no field. -/
structure IsComment (types : List String) (tree : Tree) : Prop where
  type : tree.type ∈ types
  isNamed : tree.isNamed = true
  fields : tree.label.fields = []
  children : tree.children = []

/-- Comments are put among the children of some nodes only if these fit. -/
abbrev Fitting := Label → List Tree → List Tree → Prop

/-- Comments are put anywhere. -/
def Anywhere : Fitting := fun _ _ _ => True

/-- Trees with comments among them and below them. -/
inductive Interspersed (types : List String) (fits : Fitting) : List Tree → List Tree → Prop where
  | nil : Interspersed types fits [] []
  | comment {trees others : List Tree} {comment : Tree} (hcomment : comment.IsComment types)
      (hrest : Interspersed types fits trees others) :
      Interspersed types fits trees (comment :: others)
  | node {label : Label} {children others trees more : List Tree} (hfits : fits label children others)
      (hchildren : Interspersed types fits children others)
      (hrest : Interspersed types fits trees more) :
      Interspersed types fits (.node label children :: trees) (.node label others :: more)

/-- A tree with comments below it. -/
inductive Commented (types : List String) (fits : Fitting) : Tree → Tree → Prop where
  | node {label : Label} {children others : List Tree} (hfits : fits label children others)
      (hchildren : Interspersed types fits children others) :
      Commented types fits (.node label children) (.node label others)

/-- What is read of a tree is the same whatever comments are put below it. -/
def IgnoresComments (types : List String) (fits : Fitting) (read : Tree → β) : Prop :=
  ∀ tree other, Commented types fits tree other → read other = read tree

variable {types : List String} {fits : Fitting} {tree other : Tree} {trees others : List Tree}

theorem IgnoresComments.map {read : Tree → β} (hread : IgnoresComments types fits read) (use : β → γ) :
    IgnoresComments types fits fun tree => use (read tree) :=
  fun tree other hcommented => congrArg use (hread tree other hcommented)

namespace Commented

variable (hcommented : Commented types fits tree other)

include hcommented

theorem label_eq : other.label = tree.label := by
  cases hcommented
  rfl

theorem children : Interspersed types fits tree.children other.children := by
  cases hcommented with
  | node _ hchildren => exact hchildren

theorem isFitting : fits tree.label tree.children other.children := by
  cases hcommented with
  | node hfits _ => exact hfits

theorem type_eq : other.type = tree.type := by rw [type, type, hcommented.label_eq]

theorem text_eq : other.text = tree.text := by rw [text, text, hcommented.label_eq]

end Commented

/-! ## Children -/

/-- Something that is looked for is not found in a comment, and depends on the label only. -/
structure Seeks (types : List String) (suits : Tree → Bool) : Prop where
  comment : ∀ tree : Tree, tree.IsComment types → suits tree = false
  label : ∀ tree other : Tree, other.label = tree.label → suits other = suits tree

theorem seeks_isUnder (name : String) : Seeks types (isUnder name) where
  comment tree hcomment := by
    rw [isUnder, hcomment.fields]
    rfl
  label tree other hlabel := by rw [isUnder, isUnder, hlabel]

theorem Seeks.and_isNamed {suits : Tree → Bool} (hsuits : Seeks types suits) :
    Seeks types fun tree => suits tree && tree.isNamed where
  comment tree hcomment := by rw [hsuits.comment tree hcomment, Bool.false_and]
  label tree other hlabel := by rw [hsuits.label tree other hlabel, isNamed, isNamed, hlabel]

theorem seeks_type {kinds : List String} (hkinds : ∀ kind ∈ types, kind ∉ kinds) :
    Seeks types fun tree => kinds.contains tree.type where
  comment tree hcomment := by simpa using hkinds _ hcomment.type
  label tree other hlabel := by rw [type, type, hlabel]

theorem seeks_typeIs (kind : String) (hkind : kind ∉ types) :
    Seeks types fun tree => decide (tree.type = kind) where
  comment tree hcomment := decide_eq_false fun heq => hkind (heq ▸ hcomment.type)
  label tree other hlabel := by rw [type, type, hlabel]

/-- Lists are related if they are made of parts that are. -/
structure Concatenates (relate : List β → List β → Prop) : Prop where
  nil : relate [] []
  append : ∀ {items others more rest : List β}, relate items others → relate more rest →
    relate (items ++ more) (others ++ rest)

theorem concatenates_eq : Concatenates (@Eq (List β)) where
  nil := rfl
  append hitems hmore := by rw [hitems, hmore]

theorem concatenates_sublist : Concatenates fun items others : List β => others.Sublist items where
  nil := .slnil
  append hitems hmore := hitems.append hmore

theorem concatenates_forall₂ (relate : β → β → Prop) : Concatenates (List.Forall₂ relate) where
  nil := .nil
  append hitems hmore := List.rel_append hitems hmore

namespace Interspersed

/-- There need not be any comments. -/
theorem refl (hfits : ∀ label trees, fits label trees trees) :
    ∀ trees : List Tree, Interspersed types fits trees trees
  | [] => .nil
  | .node label children :: rest =>
    .node (hfits label children) (refl hfits children) (refl hfits rest)

/-- The first tree that suits is the same, but for comments below it. -/
theorem find? (hinterspersed : Interspersed types fits trees others) {suits : Tree → Bool}
    (hsuits : Seeks types suits) :
    Option.Rel (Commented types fits) (trees.find? suits) (others.find? suits) := by
  induction hinterspersed with
  | nil => exact .none
  | comment hcomment _ ih =>
      rw [List.find?_cons, hsuits.comment _ hcomment]
      exact ih
  | @node label children others trees more hfits hchildren _ _ ih =>
      rw [List.find?_cons, List.find?_cons, hsuits.label (.node label children) (.node label others) rfl]
      cases suits (.node label children) with
      | true => exact .some (.node hfits hchildren)
      | false => exact ih

theorem any (hinterspersed : Interspersed types fits trees others) {suits : Tree → Bool}
    (hsuits : Seeks types suits) : others.any suits = trees.any suits := by
  induction hinterspersed with
  | nil => rfl
  | comment hcomment _ ih =>
      rw [List.any_cons, hsuits.comment _ hcomment, Bool.false_or]
      exact ih
  | @node label children others trees more hfits hchildren _ _ ih =>
      rw [List.any_cons, List.any_cons, hsuits.label (.node label children) (.node label others) rfl, ih]

/-- The trees that suit are the same, but for comments below them. -/
theorem filter (hinterspersed : Interspersed types fits trees others) {suits : Tree → Bool}
    (hsuits : Seeks types suits) :
    List.Forall₂ (Commented types fits) (trees.filter suits) (others.filter suits) := by
  induction hinterspersed with
  | nil => exact .nil
  | comment hcomment _ ih =>
      rw [List.filter_cons, hsuits.comment _ hcomment]
      exact ih
  | @node label children others trees more hfits hchildren _ _ ih =>
      rw [List.filter_cons, List.filter_cons,
        hsuits.label (.node label children) (.node label others) rfl]
      cases suits (.node label children) with
      | true => exact .cons (.node hfits hchildren) ih
      | false => exact ih

/-- What is read of some trees, one after the other, is related if it is for each of them and nothing is
read of comments. -/
theorem flatMap_rel (hinterspersed : Interspersed types fits trees others)
    {relate : List β → List β → Prop} (hrelate : Concatenates relate) {read : Tree → List β}
    (hcomment : ∀ tree : Tree, tree.IsComment types → read tree = [])
    (hread : ∀ tree ∈ trees, ∀ other, Commented types fits tree other →
      relate (read tree) (read other)) :
    relate (trees.flatMap read) (others.flatMap read) := by
  induction hinterspersed with
  | nil => exact hrelate.nil
  | comment hisComment _ ih =>
      rw [List.flatMap_cons, hcomment _ hisComment, List.nil_append]
      exact ih hread
  | node hfits hchildren _ _ ih =>
      obtain ⟨hfirst, hrest⟩ := List.forall_mem_cons.mp hread
      rw [List.flatMap_cons, List.flatMap_cons]
      exact hrelate.append (hfirst _ (.node hfits hchildren)) (ih hrest)

theorem flatMap (hinterspersed : Interspersed types fits trees others) {read : Tree → List β}
    (hcomment : ∀ tree : Tree, tree.IsComment types → read tree = [])
    (hread : ∀ tree ∈ trees, ∀ other, Commented types fits tree other → read other = read tree) :
    others.flatMap read = trees.flatMap read := by
  refine (hinterspersed.flatMap_rel concatenates_eq hcomment fun tree htree other hcommented => ?_).symm
  exact (hread tree htree other hcommented).symm

theorem of_forall₂ (htrees : List.Forall₂ (Commented types fits) trees others) :
    Interspersed types fits trees others := by
  induction htrees with
  | nil => exact .nil
  | cons hcommented _ ih =>
      cases hcommented with
      | node hfits hchildren => exact .node hfits hchildren ih

/-- Only some of the trees, comments among them. -/
theorem filter_of_label (hinterspersed : Interspersed types fits trees others)
    {suits : Tree → Bool}
    (hlabel : ∀ tree other : Tree, other.label = tree.label → suits other = suits tree) :
    Interspersed types fits (trees.filter suits) (others.filter suits) := by
  induction hinterspersed with
  | nil => exact .nil
  | @comment trees others comment hcomment _ ih =>
      rw [List.filter_cons]
      cases suits comment with
      | true => exact .comment hcomment ih
      | false => exact ih
  | @node label children others trees more hfits hchildren _ _ ih =>
      rw [List.filter_cons, List.filter_cons, hlabel (.node label children) (.node label others) rfl]
      cases suits (.node label children) with
      | true => exact .node hfits hchildren ih
      | false => exact ih

/-- If comments are not told apart, then one of them may be found first. -/
theorem find?_of_label (hinterspersed : Interspersed types fits trees others) (suits : Tree → Bool)
    (hlabel : ∀ tree other : Tree, other.label = tree.label → suits other = suits tree) :
    (∃ comment, others.find? suits = some comment ∧ comment.IsComment types) ∨
      Option.Rel (Commented types fits) (trees.find? suits) (others.find? suits) := by
  induction hinterspersed with
  | nil => exact .inr .none
  | @comment trees others comment hcomment _ ih =>
      rw [List.find?_cons]
      cases suits comment with
      | true => exact .inl ⟨comment, rfl, hcomment⟩
      | false => exact ih
  | @node label children others trees more hfits hchildren _ _ ih =>
      rw [List.find?_cons, List.find?_cons, hlabel (.node label children) (.node label others) rfl]
      cases suits (.node label children) with
      | true => exact .inr (.some (.node hfits hchildren))
      | false => exact ih

end Interspersed

section Commented

variable (hcommented : Commented types fits tree other)

include hcommented

theorem Commented.field? (name : String) :
    Option.Rel (Commented types fits) (tree.field? name) (other.field? name) :=
  hcommented.children.find? (seeks_isUnder name)

theorem Commented.findChild? (kinds : List String) (hkinds : ∀ kind ∈ types, kind ∉ kinds) :
    Option.Rel (Commented types fits) (tree.findChild? kinds) (other.findChild? kinds) :=
  hcommented.children.find? (seeks_type hkinds)

theorem Commented.childrenOf (kinds : List String) (hkinds : ∀ kind ∈ types, kind ∉ kinds) :
    List.Forall₂ (Commented types fits) (tree.childrenOf kinds) (other.childrenOf kinds) :=
  hcommented.children.filter (seeks_type hkinds)

theorem Commented.namedChildren :
    Interspersed types fits tree.namedChildren other.namedChildren := by
  refine hcommented.children.filter_of_label fun tree other hlabel => ?_
  rw [isNamed, isNamed, hlabel]

theorem Commented.namedChildren_filter {suits : Tree → Bool} (hsuits : Seeks types suits) :
    List.Forall₂ (Commented types fits) (tree.namedChildren.filter suits)
      (other.namedChildren.filter suits) := by
  rw [Tree.namedChildren, Tree.namedChildren, List.filter_filter, List.filter_filter]
  exact hcommented.children.filter hsuits.and_isNamed

/-- Comments are no tokens. -/
theorem Commented.hasToken (token : String) : other.hasToken token = tree.hasToken token := by
  refine hcommented.children.any ⟨fun comment hcomment => ?_, fun child another hlabel => ?_⟩
  · rw [hcomment.isNamed]
    rfl
  · rw [isNamed, isNamed, text, text, hlabel]

end Commented

/-! ## Reading children -/

theorem forall₂_toList {found another : Option Tree}
    (hrel : Option.Rel (Commented types fits) found another) :
    List.Forall₂ (Commented types fits) found.toList another.toList := by
  cases hrel with
  | none => exact .nil
  | some hcommented => exact .cons hcommented .nil

/-- The first of two that is found. -/
theorem rel_or {found another first second : Option Tree}
    (hrel : Option.Rel (Commented types fits) found another)
    (hlater : Option.Rel (Commented types fits) first second) :
    Option.Rel (Commented types fits) (found.or first) (another.or second) := by
  cases hrel with
  | none => exact hlater
  | some hcommented => exact .some hcommented

theorem ignoresComments_text : IgnoresComments types fits text := fun _ _ => Commented.text_eq

section Reading

variable {read : Tree → β} (hread : IgnoresComments types fits read)

include hread

theorem map_of_rel {found another : Option Tree}
    (hrel : Option.Rel (Commented types fits) found another) :
    another.map read = found.map read := by
  cases hrel with
  | none => rfl
  | some hcommented => rw [Option.map_some, Option.map_some, hread _ _ hcommented]

theorem map_of_forall₂ (htrees : List.Forall₂ (Commented types fits) trees others) :
    others.map read = trees.map read := by
  induction htrees with
  | nil => rfl
  | cons hcommented _ ih => rw [List.map_cons, List.map_cons, hread _ _ hcommented, ih]

end Reading

/-- The last of some trees has the same text. -/
theorem getLast?_of_forall₂ (htrees : List.Forall₂ (Commented types fits) trees others) :
    others.getLast?.toList.map text = trees.getLast?.toList.map text := by
  rw [← Option.toList_map, ← Option.toList_map, ← List.getLast?_map, ← List.getLast?_map,
    map_of_forall₂ ignoresComments_text htrees]

theorem flatMap_of_forall₂ {read : Tree → List β} (hread : IgnoresComments types fits read)
    (htrees : List.Forall₂ (Commented types fits) trees others) :
    others.flatMap read = trees.flatMap read := by
  rw [List.flatMap_def, List.flatMap_def, map_of_forall₂ hread htrees]

end TypeAtlas.Syntax.Tree
