import TypeAtlas.Extraction.Java

/-!
# Types as they are written

A Java type is a name with type arguments, perhaps a member of another class type, as in
`Outer<A>.Middle<B>.Inner<C>`; or an array of a type, or a wildcard.  `Spells` says which trees the
grammar builds for types, whatever stands between their parts, and `WrittenType.mentioned` which simple
names a type has in it: the last name of the type itself, and those of all types in its type arguments.

Reading a type finds these names but for some: of the segments of a qualified name, only the last two
are asked for their type arguments.  What stands in the arguments of the others, `A` in the example, is
overlooked.  `reads_all_but_overlooked` gives the exact loss.
-/

namespace TypeAtlas.Java

open Syntax

mutual

/-- A class type: its simple name and type arguments, perhaps behind the class type it is a member
of. -/
inductive ClassType where
  | simple (name : String) (arguments : List WrittenType)
  | member (outer : ClassType) (name : String) (arguments : List WrittenType)

/-- A type as it is written. -/
inductive WrittenType where
  | declared (type : ClassType)
  | array (element : WrittenType)
  | unbounded
  | bounded (bound : WrittenType)

end

namespace ClassType

def name : ClassType → String
  | simple name _ => name
  | member _ name _ => name

/-- The type arguments behind the last name. -/
def arguments : ClassType → List WrittenType
  | simple _ arguments => arguments
  | member _ _ arguments => arguments

/-- The same type with other type arguments behind the last name. -/
def applied : ClassType → List WrittenType → ClassType
  | simple name _, arguments => simple name arguments
  | member outer name _, arguments => member outer name arguments

@[simp] theorem name_applied (type : ClassType) (arguments : List WrittenType) :
    (type.applied arguments).name = type.name := by
  cases type <;> rfl

end ClassType

/-! ## Names in a type -/

mutual

/-- The names in the type arguments of a class type, from the first segment to the last. -/
def ClassType.argumentNames : ClassType → List String
  | .simple _ arguments => mentionedAll arguments
  | .member outer _ arguments => outer.argumentNames ++ mentionedAll arguments

/-- The simple names in a type: of the type itself, and of all types in type arguments. -/
def WrittenType.mentioned : WrittenType → List String
  | .declared type => type.name :: type.argumentNames
  | .array element => element.mentioned
  | .unbounded => []
  | .bounded bound => bound.mentioned

def mentionedAll : List WrittenType → List String
  | [] => []
  | type :: types => type.mentioned ++ mentionedAll types

end

mutual

/-- The names that are overlooked in a class type: those in the arguments of all segments before the
last two, and what is overlooked in the arguments of the last two. -/
def ClassType.overlooked : ClassType → List String
  | .simple _ arguments => overlookedAll arguments
  | .member outer _ arguments => outer.overlookedAsOuter ++ overlookedAll arguments

/-- The names that are overlooked in a class type with one more name behind it. -/
def ClassType.overlookedAsOuter : ClassType → List String
  | .simple _ arguments => overlookedAll arguments
  | .member outer _ arguments => outer.argumentNames ++ overlookedAll arguments

def WrittenType.overlooked : WrittenType → List String
  | .declared type => type.overlooked
  | .array element => element.overlooked
  | .unbounded => []
  | .bounded bound => bound.overlooked

def overlookedAll : List WrittenType → List String
  | [] => []
  | type :: types => type.overlooked ++ overlookedAll types

end

section Applied

variable {head : ClassType} (arguments : List WrittenType)

theorem overlooked_applied (hplain : head.arguments = []) :
    (head.applied arguments).overlooked = head.overlooked ++ overlookedAll arguments := by
  cases head <;> obtain rfl : _ = [] := hplain <;>
    simp [ClassType.applied, ClassType.overlooked, overlookedAll]

theorem argumentNames_applied (hplain : head.arguments = []) :
    (head.applied arguments).argumentNames = head.argumentNames ++ mentionedAll arguments := by
  cases head <;> obtain rfl : _ = [] := hplain <;>
    simp [ClassType.applied, ClassType.argumentNames, mentionedAll]

theorem overlookedAsOuter_applied (hplain : head.arguments = []) :
    (head.applied arguments).overlookedAsOuter =
      head.argumentNames ++ overlookedAll arguments := by
  cases head <;> obtain rfl : _ = [] := hplain <;>
    simp [ClassType.applied, ClassType.overlookedAsOuter, ClassType.argumentNames, mentionedAll]

end Applied

/-! ## Trees of types -/

/-- The nodes that make up class types. -/
def partTypes : List String :=
  ["type_identifier", "scoped_type_identifier", "generic_type", "type_arguments"]

/-- What may stand between the parts of a type: annotations, and what has no class type in it, such as
tokens, comments and primitive types. -/
inductive IsFiller : Tree → Prop where
  | aside {label : Label} {children : List Tree}
      (htype : label.type ∈ ["annotation", "marker_annotation"]) : IsFiller (.node label children)
  | other {label : Label} {children : List Tree} (htype : label.type ∉ partTypes)
      (hchildren : ∀ child ∈ children, IsFiller child) : IsFiller (.node label children)

/-- Trees that spell types one after the other, with anything between them that is no type. -/
inductive Spells : List WrittenType → List Tree → Prop where
  | nil : Spells [] []
  | filler {types : List WrittenType} {tree : Tree} {trees : List Tree} (hfiller : IsFiller tree)
      (hrest : Spells types trees) : Spells types (tree :: trees)
  | simple {types : List WrittenType} {trees below : List Tree} {label : Label}
      (htype : label.type = "type_identifier") (hnamed : label.named = true)
      (hrest : Spells types trees) :
      Spells (.declared (.simple label.raw.decode []) :: types) (.node label below :: trees)
  | member {types : List WrittenType} {trees first below after : List Tree} {label last : Label}
      {outer : ClassType} (htype : label.type = "scoped_type_identifier")
      (hnamed : label.named = true) (houter : Spells [.declared outer] first)
      (hlast : last.type = "type_identifier") (hlastNamed : last.named = true)
      (hafter : ∀ tree ∈ after, IsFiller tree) (hrest : Spells types trees) :
      Spells (.declared (.member outer last.raw.decode []) :: types)
        (.node label (first ++ .node last below :: after) :: trees)
  | generic {types arguments : List WrittenType} {trees first inner after : List Tree}
      {label holder : Label} {head : ClassType} (htype : label.type = "generic_type")
      (hnamed : label.named = true) (hhead : Spells [.declared head] first)
      (hplain : head.arguments = []) (hholder : holder.type = "type_arguments")
      (harguments : Spells arguments inner) (hafter : ∀ tree ∈ after, IsFiller tree)
      (hrest : Spells types trees) :
      Spells (.declared (head.applied arguments) :: types)
        (.node label (first ++ .node holder inner :: after) :: trees)
  | array {types : List WrittenType} {trees children : List Tree} {label : Label}
      {element : WrittenType} (htype : label.type = "array_type")
      (helement : Spells [element] children) (hrest : Spells types trees) :
      Spells (.array element :: types) (.node label children :: trees)
  | unbounded {types : List WrittenType} {trees children : List Tree} {label : Label}
      (htype : label.type = "wildcard") (hchildren : Spells [] children)
      (hrest : Spells types trees) :
      Spells (.unbounded :: types) (.node label children :: trees)
  | bounded {types : List WrittenType} {trees children : List Tree} {label : Label}
      {bound : WrittenType} (htype : label.type = "wildcard") (hbound : Spells [bound] children)
      (hrest : Spells types trees) :
      Spells (.bounded bound :: types) (.node label children :: trees)

/-! ## Reading a tree -/

/-- What is no part of a class type is looked through, or not looked at. -/
theorem collect_node {label : Label} (children : List Tree)
    (hname : label.type ≠ "type_identifier") (hqualified : label.type ≠ "scoped_type_identifier") :
    typeRule.collect (.node label children) =
      if ["annotation", "marker_annotation"].contains label.type then []
      else children.flatMap typeRule.collect := by
  have hfind : typeRule.find (.node label children) =
      if ["annotation", "marker_annotation"].contains label.type then ⟨[], []⟩
      else ⟨[], children⟩ := by
    simp [typeRule, find, hname, hqualified]
  rw [NameRule.collect_eq, hfind]
  split <;> rfl

/-- A qualified name gives its last name, and what is in the type arguments of its outer segments. -/
theorem collect_qualified {label : Label} {children : List Tree}
    (htype : label.type = "scoped_type_identifier") :
    typeRule.collect (.node label children) =
      (lastSegment? (.node label children)).toList.map Tree.text ++
        ((outerSegments (.node label children)).flatMap typeArguments).flatMap typeRule.collect := by
  have hfind : typeRule.find (.node label children) =
      ⟨(lastSegment? (.node label children)).toList.map Tree.text,
        (outerSegments (.node label children)).flatMap typeArguments⟩ := by
    simp [typeRule, find, htype]
  rw [NameRule.collect_eq, hfind]

theorem collect_name {label : Label} (children : List Tree)
    (htype : label.type = "type_identifier") :
    typeRule.collect (.node label children) = [label.raw.decode] := by
  have hfind : typeRule.find (.node label children) = ⟨[label.raw.decode], []⟩ := by
    simp [typeRule, find, htype]
  rw [NameRule.collect_eq, hfind]
  rfl

/-! ### What stands between the parts of a type -/

theorem IsFiller.type_not_mem {tree : Tree} (hfiller : IsFiller tree) : tree.type ∉ partTypes := by
  cases hfiller with
  | aside htype =>
      intro hpart
      simp only [List.mem_cons, List.not_mem_nil, or_false] at htype
      rcases htype with htype | htype <;> simp [partTypes, htype] at hpart
  | other htype _ => exact htype

theorem IsFiller.collect_eq_nil {tree : Tree} (hfiller : IsFiller tree) :
    typeRule.collect tree = [] := by
  induction hfiller with
  | @aside label children htype =>
      have hcontains : ["annotation", "marker_annotation"].contains label.type = true := by
        simpa using htype
      rw [collect_node children, if_pos hcontains]
      · rintro hname
        simp [hname] at htype
      · rintro hname
        simp [hname] at htype
  | @other label children htype _ ih =>
      simp only [partTypes, List.mem_cons, not_or] at htype
      rw [collect_node children htype.1 htype.2.1]
      split
      · rfl
      · exact List.flatMap_eq_nil_iff.mpr ih

theorem IsFiller.type_ne {tree : Tree} (hfiller : IsFiller tree) : tree.type ≠ "type_arguments" := by
  have htype := hfiller.type_not_mem
  simp only [partTypes, List.mem_cons, not_or] at htype
  exact htype.2.2.2.1

/-- A tree that may be an outer segment of a qualified name. -/
def isSegment (tree : Tree) : Bool :=
  ["generic_type", "scoped_type_identifier"].contains tree.type

/-- The names in the type arguments of those trees that may be outer segments. -/
def segmentNames (trees : List Tree) : List String :=
  ((trees.filter Tree.isNamed).filter isSegment).flatMap fun segment =>
    (typeArguments segment).flatMap typeRule.collect

theorem segmentNames_append (trees more : List Tree) :
    segmentNames (trees ++ more) = segmentNames trees ++ segmentNames more := by
  simp only [segmentNames, List.filter_append, List.flatMap_append]

theorem segmentNames_cons (tree : Tree) (trees : List Tree) :
    segmentNames (tree :: trees) = segmentNames [tree] ++ segmentNames trees :=
  segmentNames_append [tree] trees

theorem segmentNames_of_not_isSegment {trees : List Tree}
    (htrees : ∀ tree ∈ trees, isSegment tree = false) : segmentNames trees = [] := by
  have hnone : (trees.filter Tree.isNamed).filter isSegment = [] := by
    rw [List.filter_eq_nil_iff]
    intro tree htree
    rw [htrees tree (List.mem_filter.mp htree).1]
    exact Bool.false_ne_true
  rw [segmentNames, hnone]
  rfl

theorem segmentNames_of_isSegment {label : Label} {children : List Tree}
    (hnamed : label.named = true) (hsegment : isSegment (.node label children) = true) :
    segmentNames [.node label children] =
      (typeArguments (.node label children)).flatMap typeRule.collect := by
  simp [segmentNames, hnamed, hsegment]

/-- The outer segments are looked at from the last to the first. -/
theorem perm_segmentNames (tree : Tree) :
    (((outerSegments tree).flatMap typeArguments).flatMap typeRule.collect).Perm
      (segmentNames tree.children) := by
  rw [List.flatMap_assoc]
  exact (List.reverse_perm _).flatMap_right _

theorem IsFiller.isSegment_eq_false {tree : Tree} (hfiller : IsFiller tree) :
    isSegment tree = false := by
  have htype := hfiller.type_not_mem
  simp only [partTypes, List.mem_cons, not_or] at htype
  simp [isSegment, htype.2.1, htype.2.2.1]

/-! ### The parts of a type -/

theorem Spells.type_ne {types : List WrittenType} {trees : List Tree} (hspells : Spells types trees) :
    ∀ tree ∈ trees, tree.type ≠ "type_arguments" := by
  induction hspells with
  | nil => exact nofun
  | filler hfiller _ ih => exact List.forall_mem_cons.mpr ⟨hfiller.type_ne, ih⟩
  | simple htype | member htype | generic htype | array htype | unbounded htype | bounded htype =>
      rename_i ih
      refine List.forall_mem_cons.mpr ⟨?_, ih⟩
      rw [Tree.type_node, htype]
      decide

/-- The last name of a qualified name is found whatever stands around it. -/
theorem lastSegment?_eq {label last : Label} {first below after : List Tree}
    (hlast : last.type = "type_identifier") (hnamed : last.named = true)
    (hafter : ∀ tree ∈ after, IsFiller tree) :
    lastSegment? (.node label (first ++ .node last below :: after)) = some (.node last below) := by
  have hnone : (after.filter Tree.isNamed).filter (fun tree => tree.type = "type_identifier") = [] := by
    rw [List.filter_eq_nil_iff]
    intro tree htree
    have htype := (hafter tree (List.mem_filter.mp htree).1).type_not_mem
    simp only [partTypes, List.mem_cons, not_or] at htype
    simpa using htype.1
  simp [lastSegment?, Tree.namedChildren, hlast, hnamed, hnone]

/-- The type arguments of a generic type are found whatever stands around them. -/
theorem typeArguments_eq {label holder : Label} {first inner after : List Tree}
    (hfirst : ∀ tree ∈ first, tree.type ≠ "type_arguments")
    (hholder : holder.type = "type_arguments") :
    typeArguments (.node label (first ++ .node holder inner :: after)) = [.node holder inner] := by
  have hnone : first.find? (fun child => ["type_arguments"].contains child.type) = none := by
    rw [List.find?_eq_none]
    intro tree htree
    simpa using hfirst tree htree
  rw [typeArguments, Tree.findChild?, Tree.children_node, List.find?_append, hnone]
  simp [hholder]

theorem typeArguments_eq_nil {label : Label} {children : List Tree}
    (hchildren : ∀ tree ∈ children, tree.type ≠ "type_arguments") :
    typeArguments (.node label children) = [] := by
  have hnone : children.find? (fun child => ["type_arguments"].contains child.type) = none := by
    rw [List.find?_eq_none]
    intro tree htree
    simpa using hchildren tree htree
  rw [typeArguments, Tree.findChild?, Tree.children_node, hnone]
  rfl

/-! ## What is found and what is overlooked -/

theorem perm_append_parts {found lost all foundMore lostMore allMore : List String}
    (hfirst : (found ++ lost).Perm all) (hmore : (foundMore ++ lostMore).Perm allMore) :
    ((found ++ foundMore) ++ (lost ++ lostMore)).Perm (all ++ allMore) := by
  rw [List.perm_iff_count] at hfirst hmore ⊢
  intro name
  have hfirst := hfirst name
  have hmore := hmore name
  simp only [List.count_append] at hfirst hmore ⊢
  omega

/-- How trees that spell types are read.  As long as a single class type is spelled, it may also stand
before a last name: then its type arguments are found, but not those of its own outer segments. -/
structure IsReadAs (types : List WrittenType) (trees : List Tree) : Prop where
  names : (trees.flatMap typeRule.collect ++ overlookedAll types).Perm (mentionedAll types)
  segments : ∀ outer, types = [.declared outer] →
    (segmentNames trees ++ outer.overlookedAsOuter).Perm outer.argumentNames
  fillers : types = [] → segmentNames trees = []

namespace IsReadAs

variable {types : List WrittenType} {trees : List Tree}

/-- One more tree that spells one more type. -/
theorem cons {type : WrittenType} {tree : Tree}
    (hnames : (typeRule.collect tree ++ type.overlooked).Perm type.mentioned)
    (hsegments : ∀ outer, type = .declared outer →
      (segmentNames [tree] ++ outer.overlookedAsOuter).Perm outer.argumentNames)
    (hrest : IsReadAs types trees) : IsReadAs (type :: types) (tree :: trees) where
  names := by
    rw [List.flatMap_cons, overlookedAll, mentionedAll]
    exact perm_append_parts hnames hrest.names
  segments outer houter := by
    obtain ⟨htype, htypes⟩ := List.cons.inj houter
    rw [segmentNames_cons, hrest.fillers htypes, List.append_nil]
    exact hsegments outer htype
  fillers htypes := absurd htypes (List.cons_ne_nil type types)

theorem filler {tree : Tree} (hfiller : IsFiller tree) (hrest : IsReadAs types trees) :
    IsReadAs types (tree :: trees) := by
  have hsegment : segmentNames [tree] = [] := by
    apply segmentNames_of_not_isSegment
    intro other hother
    rw [List.mem_singleton.mp hother]
    exact hfiller.isSegment_eq_false
  refine ⟨?_, fun outer houter => ?_, fun htypes => ?_⟩
  · rw [List.flatMap_cons, hfiller.collect_eq_nil, List.nil_append]
    exact hrest.names
  · rw [segmentNames_cons, hsegment, List.nil_append]
    exact hrest.segments outer houter
  · rw [segmentNames_cons, hsegment, hrest.fillers htypes, List.nil_append]

end IsReadAs

/-- What is in the type arguments of a generic type is found behind the type itself. -/
theorem collect_generic {label holder : Label} {first inner after : List Tree}
    (htype : label.type = "generic_type") (hholder : holder.type = "type_arguments")
    (hafter : ∀ tree ∈ after, IsFiller tree) :
    typeRule.collect (.node label (first ++ .node holder inner :: after)) =
      first.flatMap typeRule.collect ++ inner.flatMap typeRule.collect := by
  have hafter : after.flatMap typeRule.collect = [] :=
    List.flatMap_eq_nil_iff.mpr fun tree htree => (hafter tree htree).collect_eq_nil
  rw [collect_node _ (by simp [htype]) (by simp [htype]), if_neg (by simp [htype]),
    List.flatMap_append, List.flatMap_cons, hafter, List.append_nil,
    collect_node _ (by simp [hholder]) (by simp [hholder]), if_neg (by simp [hholder])]

theorem Spells.isReadAs {types : List WrittenType} {trees : List Tree}
    (hspells : Spells types trees) : IsReadAs types trees := by
  induction hspells with
  | nil => exact ⟨.refl _, nofun, fun _ => rfl⟩
  | filler hfiller _ ih => exact ih.filler hfiller
  | @simple types trees below label htype hnamed _ ih =>
      refine ih.cons ?_ ?_
      · rw [collect_name below htype]
        exact .refl _
      · rintro outer houter
        obtain rfl := WrittenType.declared.inj houter
        have hsegment : segmentNames [.node label below] = [] :=
          segmentNames_of_not_isSegment (by simp [isSegment, htype])
        rw [hsegment]
        exact .refl _
  | @member types trees first below after label last outer htype hnamed houter hlast hlastNamed
      hafter _ ihouter ih =>
      refine ih.cons ?_ ?_
      · have hbehind : segmentNames (.node last below :: after) = [] := by
          apply segmentNames_of_not_isSegment
          refine List.forall_mem_cons.mpr ⟨by simp [isSegment, hlast], ?_⟩
          exact fun tree htree => (hafter tree htree).isSegment_eq_false
        have hfound := perm_segmentNames (.node label (first ++ .node last below :: after))
        rw [Tree.children_node, segmentNames_append, hbehind, List.append_nil] at hfound
        rw [collect_qualified htype, lastSegment?_eq hlast hlastNamed hafter]
        have hnames := (hfound.append_right outer.overlookedAsOuter).trans
          (ihouter.segments outer rfl)
        simpa [WrittenType.overlooked, ClassType.overlooked, overlookedAll, WrittenType.mentioned,
          ClassType.argumentNames, mentionedAll, ClassType.name] using hnames
      · rintro other hother
        obtain rfl := WrittenType.declared.inj hother
        have hnone : typeArguments (.node label (first ++ .node last below :: after)) = [] := by
          apply typeArguments_eq_nil
          intro tree htree
          rcases List.mem_append.mp htree with htree | htree
          · exact houter.type_ne tree htree
          rcases List.mem_cons.mp htree with rfl | htree
          · simp [hlast]
          · exact (hafter tree htree).type_ne
        rw [segmentNames_of_isSegment hnamed (by simp [isSegment, htype]), hnone]
        exact .refl _
  | @generic types arguments trees first inner after label holder head htype hnamed hhead hplain
      hholder _ hafter _ ihhead iharguments ih =>
      refine ih.cons ?_ ?_
      · have hnames := ihhead.names
        simp only [overlookedAll, mentionedAll, List.append_nil, WrittenType.overlooked,
          WrittenType.mentioned] at hnames
        rw [collect_generic htype hholder hafter, WrittenType.overlooked, WrittenType.mentioned,
          overlooked_applied arguments hplain, argumentNames_applied arguments hplain,
          ClassType.name_applied, ← List.cons_append]
        exact perm_append_parts hnames iharguments.names
      · rintro outer houter
        obtain rfl := WrittenType.declared.inj houter
        have hinner : typeRule.collect (.node holder inner) = inner.flatMap typeRule.collect := by
          rw [collect_node _ (by simp [hholder]) (by simp [hholder]), if_neg (by simp [hholder])]
        rw [segmentNames_of_isSegment hnamed (by simp [isSegment, htype]),
          typeArguments_eq hhead.type_ne hholder, List.flatMap_singleton, hinner,
          overlookedAsOuter_applied arguments hplain, argumentNames_applied arguments hplain]
        exact (List.perm_append_comm_assoc _ _ _).trans (iharguments.names.append_left _)
  | @array types trees children label element htype _ _ ihelement ih =>
      refine ih.cons ?_ nofun
      have hnames := ihelement.names
      simp only [overlookedAll, mentionedAll, List.append_nil] at hnames
      rw [collect_node _ (by simp [htype]) (by simp [htype]), if_neg (by simp [htype])]
      exact hnames
  | @unbounded types trees children label htype _ _ ihchildren ih =>
      refine ih.cons ?_ nofun
      rw [collect_node _ (by simp [htype]) (by simp [htype]), if_neg (by simp [htype])]
      exact ihchildren.names
  | @bounded types trees children label bound htype _ _ ihbound ih =>
      refine ih.cons ?_ nofun
      have hnames := ihbound.names
      simp only [overlookedAll, mentionedAll, List.append_nil] at hnames
      rw [collect_node _ (by simp [htype]) (by simp [htype]), if_neg (by simp [htype])]
      exact hnames

/-! ## What is lost -/

/-- **Nothing in a written type is lost but what stands in the type arguments of segments before the
last two.**  The names that are read, together with those overlooked there, are all that the type
mentions; so all of them are read iff nothing is overlooked. -/
theorem reads_all_but_overlooked {type : WrittenType} {tree : Tree} (hspells : Spells [type] [tree]) :
    (typeRule.namesIn tree ++ type.overlooked).Perm type.mentioned ∧
      ((typeRule.namesIn tree).Perm type.mentioned ↔ type.overlooked = []) := by
  have hnames := hspells.isReadAs.names
  simp only [overlookedAll, mentionedAll, List.append_nil] at hnames
  rw [NameRule.namesIn, NameRule.gather_eq_flatMap_collect]
  refine ⟨hnames, fun hall => ?_, fun hnone => ?_⟩
  · have hlength := hnames.length_eq
    rw [List.length_append, hall.length_eq] at hlength
    exact List.eq_nil_of_length_eq_zero (by omega)
  · rwa [hnone, List.append_nil] at hnames

/-! ### A type with three segments -/

def tokenNode (text : String) : Tree := .node { type := text, named := false, raw := .plain text } []

def nameNode (name : String) : Tree := .node { type := "type_identifier", raw := .plain name } []

def memberNode (outer : Tree) (name : String) : Tree :=
  .node { type := "scoped_type_identifier" } [outer, tokenNode ".", nameNode name]

def genericNode (head argument : Tree) : Tree :=
  .node { type := "generic_type" }
    [head, .node { type := "type_arguments" } [tokenNode "<", argument, tokenNode ">"]]

theorem isFiller_tokenNode {text : String} (htext : text ∉ partTypes) : IsFiller (tokenNode text) :=
  .other htext nofun

theorem spells_nameNode (name : String) :
    Spells [.declared (.simple name [])] [nameNode name] :=
  @Spells.simple [] [] [] { type := "type_identifier", raw := .plain name } rfl rfl .nil

/-- More may stand behind a type. -/
theorem Spells.append_filler {types : List WrittenType} {trees : List Tree} {tree : Tree}
    (hspells : Spells types trees) (hfiller : IsFiller tree) : Spells types (trees ++ [tree]) := by
  induction hspells with
  | nil => exact .filler hfiller .nil
  | filler hfirst _ ih => exact .filler hfirst ih
  | simple htype hnamed _ ih => exact .simple htype hnamed ih
  | member htype hnamed houter hlast hlastNamed hafter _ _ ih =>
      exact .member htype hnamed houter hlast hlastNamed hafter ih
  | generic htype hnamed hhead hplain hholder harguments hafter _ _ _ ih =>
      exact .generic htype hnamed hhead hplain hholder harguments hafter ih
  | array htype helement _ _ ih => exact .array htype helement ih
  | unbounded htype hchildren _ _ ih => exact .unbounded htype hchildren ih
  | bounded htype hbound _ _ ih => exact .bounded htype hbound ih

theorem Spells.memberNode {outer : ClassType} {tree : Tree}
    (houter : Spells [.declared outer] [tree]) (name : String) :
    Spells [.declared (.member outer name [])] [memberNode tree name] := by
  have hfirst := houter.append_filler (isFiller_tokenNode (by decide : "." ∉ partTypes))
  exact @Spells.member [] [] _ [] [] { type := "scoped_type_identifier" }
    { type := "type_identifier", raw := .plain name } outer rfl rfl hfirst rfl rfl nofun .nil

theorem Spells.genericNode {head : ClassType} {argument : WrittenType} {tree inner : Tree}
    (hhead : Spells [.declared head] [tree]) (hplain : head.arguments = [])
    (hargument : Spells [argument] [inner]) :
    Spells [.declared (head.applied [argument])] [genericNode tree inner] := by
  have hinner := hargument.append_filler (isFiller_tokenNode (by decide : ">" ∉ partTypes))
  have hopened := hinner.filler (isFiller_tokenNode (by decide : "<" ∉ partTypes))
  exact @Spells.generic [] [argument] [] [tree] _ [] { type := "generic_type" }
    { type := "type_arguments" } head rfl rfl hhead hplain rfl hopened nofun .nil

/-- `Outer<A>.Middle<B>.Inner<C>` -/
def threeSegments : WrittenType :=
  .declared (.member (.member (.simple "Outer" [.declared (.simple "A" [])]) "Middle"
    [.declared (.simple "B" [])]) "Inner" [.declared (.simple "C" [])])

def threeSegmentsNode : Tree :=
  genericNode (memberNode (genericNode (memberNode (genericNode (nameNode "Outer") (nameNode "A"))
    "Middle") (nameNode "B")) "Inner") (nameNode "C")

theorem spells_threeSegments : Spells [threeSegments] [threeSegmentsNode] :=
  have houter := (spells_nameNode "Outer").genericNode rfl (spells_nameNode "A")
  have hmiddle := (houter.memberNode "Middle").genericNode rfl (spells_nameNode "B")
  (hmiddle.memberNode "Inner").genericNode rfl (spells_nameNode "C")

theorem reads_all_but_overlooked_threeSegments :
    Spells [threeSegments] [threeSegmentsNode] ∧
      (typeRule.namesIn threeSegmentsNode ++ threeSegments.overlooked).Perm
        threeSegments.mentioned ∧
      ((typeRule.namesIn threeSegmentsNode).Perm threeSegments.mentioned ↔
        threeSegments.overlooked = []) :=
  ⟨spells_threeSegments, reads_all_but_overlooked spells_threeSegments⟩

/-- The type argument of the first segment is not read. -/
theorem threeSegments_not_all_read :
    Spells [threeSegments] [threeSegmentsNode] ∧ "A" ∈ threeSegments.mentioned ∧
      "A" ∉ typeRule.namesIn threeSegmentsNode := by
  refine ⟨spells_threeSegments, by decide, fun hread => ?_⟩
  have hcount := spells_threeSegments.isReadAs.names.count_eq "A"
  have hlost : (overlookedAll [threeSegments]).count "A" = 1 := by decide
  have hall : (mentionedAll [threeSegments]).count "A" = 1 := by decide
  rw [NameRule.namesIn, NameRule.gather_eq_flatMap_collect] at hread
  rw [List.count_append, hlost, hall] at hcount
  have hfound := List.count_pos_iff.mpr hread
  omega

end TypeAtlas.Java
