import TypeAtlas.Proofs.Extraction.DeclarationOrder

/-!
# Types at package level

`Go.Declared` says where in a Go file structures and interfaces are declared outside of nodes of some
types: what counts is what is above the declaration.  Positions show what is above, but the walk only
sees it on its way down, so `Go.declaresAt` decides the same on the way, and `Go.declarationsIn_eq` is
the recursion that the entries of the walk are compared with.

The nodes of a file are the types outside of the declarations that the walk reads as a whole, those of
types, methods and functions (`Go.lists_readTypes`).  A function can also be an expression, and the
walk goes into it as into any other node.  So the types at package level are the nodes of a file just
where no type is declared in the body of such a function (`Go.lists_package_types`).
-/

namespace TypeAtlas

open Syntax

/-! ## What is above a position -/

namespace Syntax.Tree

variable {root : Tree} {types more : List String} {position : List Nat}

/-- No node above a position is of one of some types. -/
def IsOutside (root : Tree) (types : List String) (position : List Nat) : Prop :=
  ∀ above, above <+: position → above ≠ position →
    ∀ tree, root.at? above = some tree → tree.type ∉ types

theorem isOutside_nil (root : Tree) (types : List String) : root.IsOutside types [] :=
  fun _ hway hne => absurd (List.prefix_nil.mp hway) hne

/-- What is above a position is the root, and what is above it in a child. -/
theorem isOutside_cons_iff {index : Nat} {rest : List Nat} :
    root.IsOutside types (index :: rest) ↔
      root.type ∉ types ∧ ∀ child, root.children[index]? = some child → child.IsOutside types rest := by
  constructor
  · intro houtside
    refine ⟨houtside [] List.nil_prefix (List.cons_ne_nil index rest).symm root rfl, ?_⟩
    intro child hchild above hway hne tree htree
    have hbelow : root.at? (index :: above) = some tree := by
      rw [at?_cons, hchild]
      exact htree
    have hway : index :: above <+: index :: rest := (List.prefix_cons_inj index).mpr hway
    exact houtside (index :: above) hway (fun hsame => hne (List.cons.inj hsame).2) tree hbelow
  · rintro ⟨hroot, hbelow⟩ above hway hne tree htree
    cases above with
    | nil =>
        obtain rfl := Option.some.inj htree
        exact hroot
    | cons first above =>
        obtain ⟨rfl, hrest⟩ := List.cons_prefix_cons.mp hway
        obtain ⟨child, hchild, htree⟩ := Option.bind_eq_some_iff.mp htree
        exact hbelow child hchild above hrest (fun hsame => hne (congrArg _ hsame)) tree htree

theorem isOutside_append_iff : root.IsOutside (types ++ more) position ↔
    root.IsOutside types position ∧ root.IsOutside more position := by
  simp only [IsOutside, List.mem_append, not_or]
  exact ⟨fun houtside => ⟨fun above hway hne tree htree => (houtside above hway hne tree htree).1,
      fun above hway hne tree htree => (houtside above hway hne tree htree).2⟩,
    fun hboth above hway hne tree htree =>
      ⟨hboth.1 above hway hne tree htree, hboth.2 above hway hne tree htree⟩⟩

/-- One step further down there is one more node above. -/
theorem isOutside_append_singleton_iff {tree : Tree} {index : Nat}
    (htree : root.at? position = some tree) :
    root.IsOutside types (position ++ [index]) ↔
      root.IsOutside types position ∧ tree.type ∉ types := by
  constructor
  · intro houtside
    refine ⟨fun above hway hne => ?_, ?_⟩
    · apply houtside above (hway.trans (List.prefix_append position [index]))
      rintro rfl
      have hlength := hway.length_le
      rw [List.length_append, List.length_singleton] at hlength
      omega
    · exact houtside position (List.prefix_append position [index]) (by simp) tree htree
  · rintro ⟨houtside, htype⟩ above hway hne other hother
    rcases List.prefix_concat_iff.mp hway with hsame | hway
    · exact absurd hsame hne
    by_cases hsame : above = position
    · subst hsame
      rw [htree] at hother
      rwa [← Option.some.inj hother]
    · exact houtside above hway hsame other hother

end Syntax.Tree

namespace Go

/-! ## Declared types -/

/-- What a type declares that is a structure or an interface and has a name. -/
def declaration? (spec : Tree) : Option Declaration :=
  (declares spec).map fun declared => ⟨declared.1, declared.2, spec.startLine⟩

/-- What is declared at a position. -/
def declarationAt? (root : Tree) (position : List Nat) : Option Declaration :=
  (root.at? position).bind declaration?

/-- A structure or an interface is declared at a position, as a child of a declaration, and the
declaration is outside of nodes of some types. -/
inductive Declared (enclosing : List String) (root : Tree) : List Nat → Prop where
  | intro {holder : List Nat} {index : Nat} {declaration spec : Tree}
      (hholder : root.at? holder = some declaration) (htype : declaration.type = "type_declaration")
      (hspec : declaration.children[index]? = some spec) (hdeclares : (declaration? spec).isSome = true)
      (houtside : root.IsOutside enclosing holder) : Declared enclosing root (holder ++ [index])

/-- What is declared at a position and outside of nodes of some types, found on the way down. -/
def declaredAt? (enclosing : List String) (tree : Tree) : List Nat → Option Declaration
  | [] => none
  | [index] =>
    if tree.type = "type_declaration" then tree.children[index]?.bind declaration? else none
  | index :: next :: rest =>
    if tree.type ∈ enclosing then none
    else tree.children[index]?.bind fun child => declaredAt? enclosing child (next :: rest)

variable {enclosing more : List String} {root : Tree} {position : List Nat} {index next : Nat}
  {rest : List Nat} {found : Declaration}

theorem not_declared_nil : ¬ Declared enclosing root [] := by
  intro hdeclared
  generalize hposition : [] = position at hdeclared
  cases hdeclared
  exact List.append_ne_nil_of_right_ne_nil _ (List.cons_ne_nil _ _) hposition.symm

theorem declared_singleton_iff : Declared enclosing root [index] ↔
    root.type = "type_declaration" ∧
      ∃ spec, root.children[index]? = some spec ∧ (declaration? spec).isSome = true := by
  constructor
  · intro hdeclared
    generalize hposition : [index] = position at hdeclared
    cases hdeclared with
    | @intro holder last declaration spec hholder htype hspec hdeclares _ =>
        rw [← List.nil_append [index]] at hposition
        obtain ⟨rfl, hlast⟩ := List.append_inj' hposition rfl
        obtain rfl := Option.some.inj hholder
        obtain rfl := (List.cons.inj hlast).1
        exact ⟨htype, spec, hspec, hdeclares⟩
  · rintro ⟨htype, spec, hspec, hdeclares⟩
    exact @Declared.intro _ _ [] _ root spec rfl htype hspec hdeclares (root.isOutside_nil enclosing)

theorem declared_cons_cons_iff : Declared enclosing root (index :: next :: rest) ↔
    root.type ∉ enclosing ∧
      ∃ child, root.children[index]? = some child ∧ Declared enclosing child (next :: rest) := by
  constructor
  · intro hdeclared
    generalize hposition : index :: next :: rest = position at hdeclared
    cases hdeclared with
    | @intro holder last declaration spec hholder htype hspec hdeclares houtside =>
        cases holder with
        | nil => cases hposition
        | cons first holder =>
            obtain ⟨rfl, hrest⟩ := List.cons.inj hposition
            obtain ⟨child, hchild, hholder⟩ := Option.bind_eq_some_iff.mp hholder
            obtain ⟨hroot, hbelow⟩ := Tree.isOutside_cons_iff.mp houtside
            rw [hrest]
            exact ⟨hroot, child, hchild, .intro hholder htype hspec hdeclares (hbelow child hchild)⟩
  · rintro ⟨hroot, child, hchild, hdeclared⟩
    generalize next :: rest = position at hdeclared
    cases hdeclared with
    | @intro holder last declaration spec hholder htype hspec hdeclares houtside =>
        have hholder : root.at? (index :: holder) = some declaration := by
          rw [Tree.at?_cons, hchild]
          exact hholder
        have houtside : root.IsOutside enclosing (index :: holder) := by
          refine Tree.isOutside_cons_iff.mpr ⟨hroot, fun other hother => ?_⟩
          rw [hchild] at hother
          rwa [← Option.some.inj hother]
        exact .intro hholder htype hspec hdeclares houtside

theorem isSome_declarationAt? (hdeclared : Declared enclosing root position) :
    (declarationAt? root position).isSome = true := by
  cases hdeclared with
  | @intro holder index declaration spec hholder _ hspec hdeclares _ =>
      have hposition := Tree.at?_append_singleton_eq_some_iff.mpr ⟨declaration, hholder, hspec⟩
      rwa [declarationAt?, hposition]

/-- **What is declared is found on the way down.** -/
theorem declaredAt?_eq_some_iff : declaredAt? enclosing root position = some found ↔
    Declared enclosing root position ∧ declarationAt? root position = some found := by
  fun_induction declaredAt? enclosing root position with
  | case1 => exact iff_of_false nofun fun hboth => not_declared_nil hboth.1
  | case2 root index htype =>
      rw [declared_singleton_iff, declarationAt?, Tree.at?_cons]
      cases root.children[index]? with
      | none => exact iff_of_false nofun nofun
      | some spec =>
          refine ⟨fun hfound => ⟨⟨htype, spec, rfl, ?_⟩, hfound⟩, fun hboth => hboth.2⟩
          exact Option.isSome_of_eq_some hfound
  | case3 root index htype =>
      refine iff_of_false nofun fun hboth => htype ?_
      exact (declared_singleton_iff.mp hboth.1).1
  | case4 root index next rest hwithin =>
      refine iff_of_false nofun fun hboth => ?_
      exact (declared_cons_cons_iff.mp hboth.1).1 hwithin
  | case5 root index next rest houtside ih =>
      rw [declared_cons_cons_iff, declarationAt?, Tree.at?_cons]
      cases root.children[index]? with
      | none => exact iff_of_false nofun nofun
      | some child =>
          refine (ih child).trans ⟨fun hboth => ⟨⟨houtside, child, rfl, hboth.1⟩, hboth.2⟩, ?_⟩
          rintro ⟨⟨-, other, hother, hdeclared⟩, hfound⟩
          -- There is only one child at an index.
          obtain rfl := Option.some.inj hother
          exact ⟨hdeclared, hfound⟩

theorem isSome_declaredAt?_iff :
    (declaredAt? enclosing root position).isSome = true ↔ Declared enclosing root position := by
  simp only [Option.isSome_iff_exists, declaredAt?_eq_some_iff, exists_and_left]
  refine and_iff_left_of_imp fun hdeclared => ?_
  exact Option.isSome_iff_exists.mp (isSome_declarationAt? hdeclared)

instance (position : List Nat) : Decidable (Declared enclosing root position) :=
  decidable_of_iff _ isSome_declaredAt?_iff

/-- To be outside of more nodes is to be outside of them as well. -/
theorem declared_append_iff (hmore : "type_declaration" ∉ more) :
    Declared (enclosing ++ more) root position ↔
      Declared enclosing root position ∧ root.IsOutside more position := by
  constructor
  · intro hdeclared
    cases hdeclared with
    | intro hholder htype hspec hdeclares houtside =>
        obtain ⟨houtside, hother⟩ := Tree.isOutside_append_iff.mp houtside
        refine ⟨.intro hholder htype hspec hdeclares houtside, ?_⟩
        rw [Tree.isOutside_append_singleton_iff hholder, htype]
        exact ⟨hother, hmore⟩
  · rintro ⟨hdeclared, hother⟩
    cases hdeclared with
    | intro hholder htype hspec hdeclares houtside =>
        have hother := (Tree.isOutside_append_singleton_iff hholder).mp hother
        exact .intro hholder htype hspec hdeclares
          (Tree.isOutside_append_iff.mpr ⟨houtside, hother.1⟩)

/-! ## All declared types -/

/-- The positions of the types that are declared outside of some nodes, in pre-order. -/
def typesIn (enclosing : List String) (root : Tree) : List (List Nat) :=
  root.positions.filter fun position => Declared enclosing root position

theorem mem_typesIn_iff : position ∈ typesIn enclosing root ↔ Declared enclosing root position := by
  rw [typesIn, List.mem_filter, decide_eq_true_iff, and_iff_right_iff_imp, Tree.mem_positions_iff]
  intro hdeclared
  cases hdeclared with
  | @intro _ _ declaration spec hholder _ hspec _ _ =>
      exact ⟨spec, Tree.at?_append_singleton_eq_some_iff.mpr ⟨declaration, hholder, hspec⟩⟩

def declarationsIn (enclosing : List String) (root : Tree) : List Declaration :=
  (typesIn enclosing root).filterMap (declarationAt? root)

/-- At each position of a declared type there is one declaration. -/
theorem map_some_declarationsIn (enclosing : List String) (root : Tree) :
    (declarationsIn enclosing root).map some = (typesIn enclosing root).map (declarationAt? root) := by
  rw [declarationsIn, List.map_filterMap_some_eq_filter_map_isSome, List.filter_eq_self]
  intro found hfound
  obtain ⟨position, hposition, rfl⟩ := List.mem_map.mp hfound
  exact isSome_declarationAt? (mem_typesIn_iff.mp hposition)

theorem declarationsIn_eq_filterMap (enclosing : List String) (root : Tree) :
    declarationsIn enclosing root = root.positions.filterMap (declaredAt? enclosing root) := by
  rw [declarationsIn, typesIn, List.filterMap_filter]
  refine List.filterMap_congr fun position _ => Option.ext fun found => ?_
  rw [declaredAt?_eq_some_iff, Option.ite_none_right_eq_some, decide_eq_true_iff]

/-- Child by child: what it declares, and what is declared in it. -/
theorem declarationsIn_eq (enclosing : List String) (tree : Tree) :
    declarationsIn enclosing tree = tree.children.flatMap fun child =>
      (if tree.type = "type_declaration" then (declaration? child).toList else []) ++
        if tree.type ∈ enclosing then [] else declarationsIn enclosing child := by
  have hindices := flatMap_zipIdx_fst tree.children 0 fun child =>
    (if tree.type = "type_declaration" then (declaration? child).toList else []) ++
      if tree.type ∈ enclosing then [] else declarationsIn enclosing child
  rw [← hindices, declarationsIn_eq_filterMap, Tree.filterMap_positions]
  refine List.flatMap_congr fun entry hentry => ?_
  have hchild := List.mem_zipIdx_iff_getElem?.mp hentry
  -- The child itself is the last step of a way; the ways through it are those in it.
  rw [declarationsIn_eq_filterMap, Tree.filterMap_positions, Tree.filterMap_positions entry.1]
  simp only [declaredAt?, hchild, Option.bind_some]
  congr 1
  · split <;> rfl
  · split
    · simp
    · rfl

/-! ## The walk -/

/-- The declarations that are read as a whole. -/
def readTypes : List String := ["type_declaration", "method_declaration", "function_declaration"]

theorem declarations_specEntries {spec : Tree} (hspec : spec.type = "type_spec") :
    (specEntries spec).filterMap Entry.declaration? = (declaration? spec).toList := by
  rw [specEntries, declaration?, declares, if_pos hspec]
  cases declaredName? spec with
  | none => rfl
  | some name =>
      cases spec.field? "type" with
      | none => rfl
      | some type =>
          simp only [Option.bind_some]
          rw [kindOf?]
          split
          case isTrue => exact Entry.filterMap_declaration?_cons (allFrom_structEntries type)
          case isFalse =>
            split
            case isTrue =>
              exact Entry.filterMap_declaration?_cons
                (Entry.allFrom_flatMap fun member _ => allFrom_memberEntries member)
            case isFalse => rfl

/-- Only types of declarations declare anything. -/
theorem declarations_childrenOf (tree : Tree) :
    ((tree.childrenOf ["type_spec"]).flatMap specEntries).filterMap Entry.declaration? =
      tree.children.flatMap fun child => (declaration? child).toList := by
  rw [Tree.childrenOf, List.filterMap_flatMap]
  induction tree.children with
  | nil => rfl
  | cons child rest ih =>
      rw [List.filter_cons, List.flatMap_cons]
      split
      case isTrue htype =>
        have htype : child.type = "type_spec" := by simpa using htype
        rw [List.flatMap_cons, declarations_specEntries htype, ih]
      case isFalse htype =>
        have htype : child.type ≠ "type_spec" := by simpa using htype
        rw [ih, declaration?, declares, if_neg htype]
        rfl

theorem isSome_visit_iff (tree : Tree) : (visit tree).isSome = true ↔ tree.type ∈ readTypes := by
  simp only [readTypes, List.mem_cons, List.not_mem_nil, or_false]
  rw [visit]
  grind

theorem declarations_visit {tree : Tree} {entries : List Entry} (hentries : visit tree = some entries) :
    entries.filterMap Entry.declaration? = declarationsIn readTypes tree := by
  have hread : tree.type ∈ readTypes :=
    (isSome_visit_iff tree).mp (Option.isSome_of_eq_some hentries)
  rw [declarationsIn_eq]
  simp only [if_pos hread, List.append_nil]
  rw [visit] at hentries
  split at hentries
  case isTrue htype =>
    obtain rfl := Option.some.inj hentries
    simp only [if_pos htype]
    exact declarations_childrenOf tree
  case isFalse htype =>
    have hnone : (tree.children.flatMap fun child =>
        if tree.type = "type_declaration" then (declaration? child).toList else []) = [] :=
      List.flatMap_eq_nil_iff.mpr fun child _ => if_neg htype
    rw [hnone]
    split at hentries
    case isTrue =>
      obtain rfl := Option.some.inj hentries
      rw [List.filterMap_flatMap, List.flatMap_eq_nil_iff]
      exact fun owner _ => (allFrom_signatureEntries tree).filterMap_declaration?
    case isFalse =>
      split at hentries
      case isTrue =>
        obtain rfl := Option.some.inj hentries
        rfl
      case isFalse => cases hentries

theorem declarationsIn_of_visit_eq_none {tree : Tree} (hnone : visit tree = none) :
    declarationsIn readTypes tree = tree.children.flatMap (declarationsIn readTypes) := by
  have hwalked : tree.type ∉ readTypes := by
    rw [← isSome_visit_iff, hnone]
    exact Bool.false_ne_true
  have htype : tree.type ≠ "type_declaration" := fun htype => hwalked (htype ▸ List.mem_cons_self)
  rw [declarationsIn_eq]
  simp only [if_neg hwalked, if_neg htype, List.nil_append]

mutual

theorem declarations_entriesOf : ∀ tree,
    (visit.entriesOf tree).filterMap Entry.declaration? = declarationsIn readTypes tree
  | .node label children => by
      rw [Visit.entriesOf]
      cases hown : visit (.node label children) with
      | some own => exact declarations_visit hown
      | none =>
          rw [declarationsIn_of_visit_eq_none hown]
          exact declarations_entriesBelow children

theorem declarations_entriesBelow : ∀ trees,
    (visit.entriesBelow trees).filterMap Entry.declaration? =
      trees.flatMap (declarationsIn readTypes)
  | [] => rfl
  | tree :: rest => by
      have hfirst := declarations_entriesOf tree
      have hrest := declarations_entriesBelow rest
      rw [Visit.entriesBelow, List.filterMap_append, List.flatMap_cons, hfirst, hrest]

end

/-! ## The nodes of a file -/

/-- The nodes of a file are the types that are declared outside of some nodes: one for each position,
in pre-order. -/
structure Lists (enclosing : List String) (root : Tree) (file : String) : Prop where
  declared : ∀ position, position ∈ typesIn enclosing root ↔ Declared enclosing root position
  sorted : (typesIn enclosing root).Pairwise (· < ·)
  nodes : ∃ fragment, Extractor.go.extract root file = .ok fragment ∧
    (fragment.nodes.map fun node => some node.declaration) =
      (typesIn enclosing root).map (declarationAt? root) ∧
    ∀ node ∈ fragment.nodes, node.file = file

variable {file : String}

theorem lists_readTypes (hrows : root.HasRows) (file : String) : Lists readTypes root file := by
  have hvisit : Extractor.go.visit? = some visit := rfl
  obtain ⟨builder, hextract, hfile, hbuilder, hdeclarations⟩ :=
    Extractor.extract_of_isWithin hvisit isWithin_visit hrows file
  refine ⟨fun _ => mem_typesIn_iff, root.pairwise_positions.filter _, builder.build, hextract, ?_, ?_⟩
  · calc
      (builder.build.nodes.map fun node => some node.declaration) =
          builder.declarations.map some := (List.map_map ..).symm
      _ = (declarationsIn readTypes root).map some := by
        rw [hdeclarations, declarations_entriesOf]
      _ = (typesIn readTypes root).map (declarationAt? root) := map_some_declarationsIn readTypes root
  · intro node hnode
    obtain ⟨-, hnodeFile, -⟩ := hbuilder node (List.mem_reverse.mp hnode)
    exact hnodeFile.trans hfile

theorem typesIn_append (hmore : "type_declaration" ∉ more) :
    typesIn (enclosing ++ more) root =
      (typesIn enclosing root).filter fun position => Declared (enclosing ++ more) root position := by
  rw [typesIn, typesIn, List.filter_filter]
  refine List.filter_congr fun position _ => ?_
  rw [← Bool.decide_and, decide_eq_decide, declared_append_iff hmore]
  exact ⟨fun hboth => ⟨hboth, hboth.1⟩, fun hboth => hboth.1⟩

/-- Nodes that types are to be outside of as well make no difference where all types are. -/
theorem Lists.append_iff (hlists : Lists enclosing root file) (hmore : "type_declaration" ∉ more) :
    Lists (enclosing ++ more) root file ↔
      ∀ position, Declared enclosing root position → root.IsOutside more position := by
  obtain ⟨fragment, hextract, hnodes, hfile⟩ := hlists.nodes
  constructor
  · intro hboth position hdeclared
    obtain ⟨other, hother, hsame, -⟩ := hboth.nodes
    rw [hextract] at hother
    obtain rfl := Except.ok.inj hother
    have hlength := congrArg List.length (hnodes.symm.trans hsame)
    rw [List.length_map, List.length_map, typesIn_append hmore] at hlength
    have hall := List.length_filter_eq_length_iff.mp hlength.symm position
      (mem_typesIn_iff.mpr hdeclared)
    exact ((declared_append_iff hmore).mp (of_decide_eq_true hall)).2
  · intro houtside
    have hsame : typesIn (enclosing ++ more) root = typesIn enclosing root := by
      rw [typesIn_append hmore, List.filter_eq_self]
      intro position hposition
      have hdeclared := mem_typesIn_iff.mp hposition
      exact decide_eq_true ((declared_append_iff hmore).mpr ⟨hdeclared, houtside position hdeclared⟩)
    refine ⟨fun _ => mem_typesIn_iff, root.pairwise_positions.filter _, fragment, hextract, ?_, hfile⟩
    rw [hsame]
    exact hnodes

/-- **The types at package level become nodes, and so do those in functions that are expressions.**
What is outside of functions of either form is at package level. -/
theorem lists_package_types (hrows : root.HasRows) (file : String) :
    Lists readTypes root file ∧
      (Lists (readTypes ++ ["func_literal"]) root file ↔
        ∀ position, Declared readTypes root position → root.IsOutside ["func_literal"] position) := by
  have hlists := lists_readTypes hrows file
  exact ⟨hlists, hlists.append_iff (by decide)⟩

def structDeclaration (name : String) : Tree :=
  .node { type := "type_declaration" }
    [.node { type := "type_spec" }
      [.node { type := "type_identifier", fields := ["name"], raw := .plain name } [],
        .node { type := "struct_type", fields := ["type"] } []]]

/-- A type in the body of a function that a variable is initialized with, one in the body of a declared
function, and one at package level. -/
def localTypes : Tree :=
  .node { type := "source_file" }
    [.node { type := "var_declaration" }
      [.node { type := "func_literal" }
        [.node { type := "block", fields := ["body"] } [structDeclaration "hidden"]]],
      .node { type := "function_declaration" }
        [.node { type := "block", fields := ["body"] } [structDeclaration "local"]],
      structDeclaration "Open"]

theorem hasRows_localTypes : localTypes.HasRows := by
  simp [localTypes, structDeclaration, Tree.hasRows_node]

theorem lists_package_types_localTypes :
    localTypes.HasRows ∧ Lists readTypes localTypes "" ∧
      (Lists (readTypes ++ ["func_literal"]) localTypes "" ↔ ∀ position,
        Declared readTypes localTypes position → localTypes.IsOutside ["func_literal"] position) :=
  ⟨hasRows_localTypes, lists_package_types hasRows_localTypes ""⟩

example : declarationsIn readTypes localTypes =
    [⟨"hidden", .classType, 1⟩, ⟨"Open", .classType, 1⟩] := by decide +kernel

/-- The type in the function that is an expression has a node, and is not at package level. -/
theorem localTypes_not_at_package_level :
    localTypes.HasRows ∧ ¬ Lists (readTypes ++ ["func_literal"]) localTypes "" := by
  refine ⟨hasRows_localTypes, fun hlists => ?_⟩
  have hread := lists_readTypes hasRows_localTypes ""
  have houtside := (hread.append_iff (by decide)).mp hlists
  have hdeclared : Declared readTypes localTypes [0, 0, 0, 0, 0] := by decide
  exact houtside _ hdeclared [0, 0] (by decide) (by decide) _ rfl (by decide)

end Go
end TypeAtlas
