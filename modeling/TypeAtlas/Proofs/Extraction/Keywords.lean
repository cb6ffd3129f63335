import Mathlib.Data.List.Nodup
import TypeAtlas.Proofs.Extraction.Comments
import TypeAtlas.Proofs.Extraction.NestedDeclarations
import TypeAtlas.Proofs.Syntax.Erasure

/-!
# The keyword of a declaration

In Swift one type of node stands for classes, structures, actors, enumerations and extensions, and a
keyword tells them apart.  All that the keyword decides is what the declaration itself declares, if
anything: the edges of a file, and the other nodes, do not depend on it.

A keyword is a text that hardly anything asks for.  Without the texts of all keywords (`Swift.erased`)
a file has the same edges, and the same declarations are taken.  So two trees that differ in one keyword
(`Swift.Rekeyed`) have the same edges and take the same positions, and at all of these but one they
declare the same (`Swift.keyword_decides_own_node`).
-/

namespace TypeAtlas

open Syntax Entry Tree

/-! ## Readers that do not ask for a text -/

section Erasure

variable {hidden : Label → Bool}

theorem NameRule.collect_erase {rule : NameRule}
    (hfind : ∀ tree, rule.find (erase hidden tree) =
      ⟨(rule.find tree).names, (rule.find tree).next.map (erase hidden)⟩) (tree : Tree) :
    rule.collect (tree.erase hidden) = rule.collect tree := by
  rw [collect_eq, collect_eq, hfind, List.flatMap_map]
  congr 1
  refine List.flatMap_congr fun child hchild => ?_
  exact collect_erase hfind child
termination_by tree.size
decreasing_by exact Nat.lt_of_le_of_lt (size_le_sizeAll hchild) (rule.next_lt tree)

namespace DeclarationRule

/-- What counts as a declaration does not depend on hidden texts, nor does its name. -/
structure LooksPast (rule : DeclarationRule) (hidden : Label → Bool) : Prop where
  isDeclaration : ∀ tree, rule.isDeclaration (erase hidden tree) = rule.isDeclaration tree
  isNested : ∀ tree, rule.isNested (erase hidden tree) = rule.isNested tree
  holdsMembers : ∀ tree, rule.holdsMembers (erase hidden tree) = rule.holdsMembers tree
  name? : ∀ tree, rule.name? (erase hidden tree) = rule.name? tree

variable {rule : DeclarationRule}

theorem LooksPast.partOfDeclaration (hrule : rule.LooksPast hidden) (tree : Tree) :
    rule.partOfDeclaration (tree.erase hidden) = rule.partOfDeclaration tree := by
  rw [DeclarationRule.partOfDeclaration, hrule.name?, DeclarationRule.partOfDeclaration]

theorem LooksPast.outerPart (hrule : rule.LooksPast hidden) (tree : Tree) :
    rule.outerPart (tree.erase hidden) = rule.outerPart tree := by
  rw [DeclarationRule.outerPart, hrule.isDeclaration, hrule.partOfDeclaration,
    DeclarationRule.outerPart]

theorem LooksPast.memberPart (hrule : rule.LooksPast hidden) (tree : Tree) :
    rule.memberPart (tree.erase hidden) = rule.memberPart tree := by
  rw [DeclarationRule.memberPart, isNamed_erase, hrule.isNested, hrule.holdsMembers,
    hrule.partOfDeclaration, DeclarationRule.memberPart]

theorem LooksPast.childPart (hrule : rule.LooksPast hidden) (part : Part) (parent : Tree)
    (index : Nat) (child : Tree) :
    rule.childPart part (parent.erase hidden) index (child.erase hidden) =
      rule.childPart part parent index child := by
  have hbody : (parent.children.map (erase hidden)).findIdx? (isUnder "body") =
      parent.children.findIdx? (isUnder "body") := by
    have hunder : isUnder "body" ∘ erase hidden = isUnder "body" :=
      funext fun child => child.isUnder_erase hidden "body"
    rw [List.findIdx?_map, hunder]
  cases part with
  | outside => exact hrule.outerPart child
  | taken => rw [DeclarationRule.childPart, children_erase, hbody]; rfl
  | members => exact hrule.memberPart child
  | skipped => rfl

theorem LooksPast.partBelow (hrule : rule.LooksPast hidden) (part : Part) (tree : Tree)
    (position : List Nat) :
    rule.partBelow part (tree.erase hidden) position = rule.partBelow part tree position := by
  induction position generalizing part tree with
  | nil => rfl
  | cons index rest ih =>
      rw [DeclarationRule.partBelow, DeclarationRule.partBelow, children_erase, List.getElem?_map]
      cases tree.children[index]? with
      | none => rfl
      | some child =>
          simp only [Option.map_some, hrule.childPart]
          exact ih _ child

/-- **The same declarations are taken.** -/
theorem LooksPast.takenIn (hrule : rule.LooksPast hidden) (root : Tree) :
    rule.takenIn (root.erase hidden) = rule.takenIn root := by
  rw [DeclarationRule.takenIn, DeclarationRule.takenIn, positions_erase]
  refine List.filter_congr fun position _ => decide_eq_decide.mpr ?_
  rw [← partAt_eq_taken_iff, ← partAt_eq_taken_iff, partAt, partAt, hrule.outerPart, hrule.partBelow]

end DeclarationRule
end Erasure

namespace Swift

/-! ## Readers that do not ask for a keyword -/

/-- The label of what is held as a keyword and as nothing else, and is no name of a type. -/
structure IsKeyword (label : Label) : Prop where
  held : "declaration_kind" ∈ label.fields
  alone : ∀ field ∈ label.fields, field = "declaration_kind"
  type_ne : label.type ∉ ["type_identifier", "user_type"]

instance (label : Label) : Decidable (IsKeyword label) :=
  decidable_of_iff ("declaration_kind" ∈ label.fields ∧
      (∀ field ∈ label.fields, field = "declaration_kind") ∧
        label.type ∉ ["type_identifier", "user_type"])
    ⟨fun hall => ⟨hall.1, hall.2.1, hall.2.2⟩, fun hlabel =>
      ⟨hlabel.held, hlabel.alone, hlabel.type_ne⟩⟩

/-- A tree without the texts of its keywords. -/
abbrev erased : Tree → Tree := erase fun label => IsKeyword label

variable {tree other : Tree}

theorem text_erased (hseen : ¬ IsKeyword tree.label) : (erased tree).text = tree.text :=
  text_erase _ (decide_eq_false hseen)

theorem not_isKeyword_of_type (htype : tree.type ∈ ["type_identifier", "user_type"]) :
    ¬ IsKeyword tree.label :=
  fun hkeyword => hkeyword.type_ne htype

theorem not_isKeyword_of_name (hunder : tree.isUnder "name" = true) : ¬ IsKeyword tree.label := by
  intro hkeyword
  have hname := hkeyword.alone "name" (List.contains_iff_mem.mp hunder)
  exact absurd hname (by decide)

theorem find_erased (tree : Tree) : typeRule.find (erased tree) =
    ⟨(typeRule.find tree).names, (typeRule.find tree).next.map erased⟩ := by
  show find (erased tree) = ⟨(find tree).names, (find tree).next.map erased⟩
  unfold find
  rw [type_erase]
  split
  case isTrue =>
    rw [childrenOf_erase, childrenOf_erase, List.getLast?_map]
    cases hlast : (tree.childrenOf ["type_identifier"]).getLast? with
    | none => rfl
    | some last =>
        have hmem := List.mem_of_getLast? hlast
        have htype : last.type = "type_identifier" := by simpa using (List.mem_filter.mp hmem).2
        have hseen : ¬ IsKeyword last.label := not_isKeyword_of_type (by rw [htype]; decide)
        simp [text_erased hseen]
  case isFalse =>
    split
    case isTrue htype =>
      rw [text_erased (not_isKeyword_of_type (by rw [htype]; decide))]
      rfl
    case isFalse => rw [children_erase]

theorem namesIn_erased (tree : Tree) : typeRule.namesIn (erased tree) = typeRule.namesIn tree := by
  rw [NameRule.namesIn_eq_collect, NameRule.namesIn_eq_collect, NameRule.collect_erase find_erased]

theorem nameNode?_erased (tree : Tree) : nameNode? (erased tree) = (nameNode? tree).map erased := by
  rw [nameNode?, nameNode?, field?_erase, findChild?_erase, Option.map_or]

theorem not_isKeyword_of_nameNode? {node : Tree} (hnode : nameNode? tree = some node) :
    ¬ IsKeyword node.label := by
  rw [nameNode?, Option.or_eq_some_iff] at hnode
  rcases hnode with hnode | ⟨-, hnode⟩
  · exact not_isKeyword_of_name (List.find?_some hnode)
  · rw [findChild?] at hnode
    have htype := List.find?_some hnode
    exact not_isKeyword_of_type (by simpa [or_comm] using htype)

theorem nameOf?_erased (tree : Tree) : nameOf? (erased tree) = nameOf? tree := by
  rw [nameOf?, nameOf?, nameNode?_erased]
  cases hnode : nameNode? tree with
  | none => rfl
  | some node =>
      have htext := text_erased (not_isKeyword_of_nameNode? hnode)
      simp only [Option.map_some, type_erase, namesIn_erased, htext]

/-! ### Members -/

theorem references_erased (owner : String) (kind : EdgeKind) (expression : Option Tree) :
    references typeRule owner kind (expression.map erased) =
      references typeRule owner kind expression := by
  cases expression with
  | none => rfl
  | some tree => simp only [references, Option.map_some, Option.toList_some, List.map_cons,
      List.map_nil, namesIn_erased]

theorem annotations_erased (member : Tree) :
    annotations (erased member) = (annotations member).map erased := by
  have hfound : ∀ children : List Tree,
      ((children.map erased).flatMap fun child =>
        if child.type = "type_annotation" then [child]
        else if child.type = "pattern_binding" then child.childrenOf ["type_annotation"]
        else []) =
      (children.flatMap fun child =>
        if child.type = "type_annotation" then [child]
        else if child.type = "pattern_binding" then child.childrenOf ["type_annotation"]
        else []).map erased := by
    intro children
    rw [List.flatMap_map, List.map_flatMap]
    refine List.flatMap_congr fun child _ => ?_
    rw [type_erase]
    split
    · rfl
    split
    · exact childrenOf_erase _ child _
    · rfl
  rw [annotations, annotations, children_erase, hfound, field?_erase]
  simp only [List.isEmpty_map]
  split
  · cases member.field? "type" <;> rfl
  · rfl

theorem parameters_erased (function : Tree) :
    parameters (erased function) = (parameters function).map erased := by
  have hheld : ∀ holder : Tree,
      ((erased holder).namedChildren.filter fun child => child.type = "parameter") =
        (holder.namedChildren.filter fun child => child.type = "parameter").map erased := by
    intro holder
    rw [namedChildren_erase]
    exact filter_map_erase _ _ fun child => by rw [type_erase]
  rw [parameters, parameters, childrenOf_erase, field?_erase, findChild?_erase, ← Option.map_or]
  cases function.childrenOf ["parameter"] with
  | cons own more => rfl
  | nil =>
      cases (function.field? "parameters").or (function.findChild? ["function_value_parameters"]) with
      | none => rfl
      | some holder =>
          simp only [List.map_nil, Option.map_some, Option.toList_some, List.flatMap_singleton]
          exact hheld holder

theorem memberEntries_erased (owner : String) (member : Tree) :
    memberEntries owner (erased member) = memberEntries owner member := by
  rw [memberEntries, memberEntries, type_erase, annotations_erased, parameters_erased, field?_erase,
    references_erased, List.map_map, List.flatMap_map]
  have hnames : ((fun annotation => Entry.refers owner (typeRule.namesIn annotation) .fieldType) ∘
      erased) = fun annotation => Entry.refers owner (typeRule.namesIn annotation) .fieldType :=
    funext fun annotation => by simp only [Function.comp_apply, namesIn_erased]
  have hparameter : ∀ parameter : Tree,
      references typeRule owner .methodParam ((erased parameter).field? "type") =
        references typeRule owner .methodParam (parameter.field? "type") :=
    fun parameter => by rw [field?_erase, references_erased]
  simp only [hnames, hparameter]

/-! ### Edges -/

theorem kindOf?_eq_protocolType_iff :
    kindOf? tree = some .protocolType ↔ tree.type = "protocol_declaration" := by
  rw [kindOf?, kindOfKeyword?]
  -- No keyword declares a protocol.
  repeat' split
  all_goals simp_all

section Edges

variable (builtins : List String)

/-- A keyword says whether a node is added, and nothing about edges. -/
theorem edges_headingEntries (name : String) (tree : Tree) :
    (headingEntries name (erased tree)).flatMap (Entry.edges builtins) =
      (headingEntries name tree).flatMap (Entry.edges builtins) := by
  have hkind : (kindOf? (erased tree) = some .protocolType) =
      (kindOf? tree = some .protocolType) := by
    rw [kindOf?_eq_protocolType_iff, kindOf?_eq_protocolType_iff, type_erase]
  have hdeclared : ∀ tree : Tree, ((kindOf? tree).toList.map fun declared =>
      Entry.declared name declared tree.label.row).flatMap (Entry.edges builtins) = [] := by
    intro tree
    cases kindOf? tree <;> rfl
  have hinheritance : ∀ kind, ((tree.childrenOf inheritanceTypes).map erased).map (fun child =>
      Entry.refers name (typeRule.namesIn child) kind) = (tree.childrenOf inheritanceTypes).map
        fun child => Entry.refers name (typeRule.namesIn child) kind := by
    intro kind
    rw [List.map_map]
    exact List.map_congr_left fun child _ => by rw [Function.comp_apply, namesIn_erased]
  simp only [headingEntries, List.flatMap_append, hdeclared, hkind, childrenOf_erase, hinheritance]

/-- **The edges of a declaration do not depend on keywords**, nor do those of some members. -/
theorem edges_erased (tree : Tree) :
    (declarationEntries (erased tree)).flatMap (Entry.edges builtins) =
        (declarationEntries tree).flatMap (Entry.edges builtins) ∧
      ∀ owner, (membersEntries owner (erased tree)).flatMap (Entry.edges builtins) =
        (membersEntries owner tree).flatMap (Entry.edges builtins) := by
  -- The body and the members are children that are looked up, so this goes by size and not by structure.
  constructor
  · have heq : ∀ tree, declarationEntries tree = (nameOf? tree).toList.flatMap fun name =>
        headingEntries name tree ++ (tree.field? "body").toList.flatMap (membersEntries name) :=
      reading.declaration_eq
    rw [heq, heq, nameOf?_erased, field?_erase, List.flatMap_assoc, List.flatMap_assoc]
    refine List.flatMap_congr fun name _ => ?_
    rw [List.flatMap_append, List.flatMap_append, edges_headingEntries]
    congr 1
    cases hbody : tree.field? "body" with
    | none => rfl
    | some body =>
        have hchild : body ∈ tree.children := List.mem_of_find?_eq_some hbody
        simpa using (edges_erased body).2 name
  · intro owner
    have heq : ∀ tree, membersEntries owner tree = tree.namedChildren.flatMap fun child =>
        if nestedTypes.contains child.type then declarationEntries child
        else memberEntries owner child := by
      intro tree
      cases tree with
      | node label children =>
          rw [membersEntries, membersBelow_eq]
          rfl
    rw [heq, heq, namedChildren_erase, List.flatMap_assoc, List.flatMap_assoc, List.flatMap_map]
    refine List.flatMap_congr fun child hchild => ?_
    rw [type_erase]
    split
    · have hchild : child ∈ tree.children := List.mem_of_mem_filter hchild
      exact (edges_erased child).1
    · rw [memberEntries_erased]
termination_by tree.size
decreasing_by all_goals exact size_lt_of_mem hchild

mutual

theorem edges_entriesOf : ∀ tree,
    (visit.entriesOf (erased tree)).flatMap (Entry.edges builtins) =
      (visit.entriesOf tree).flatMap (Entry.edges builtins)
  | .node label children => by
      rw [Visit.entriesOf_eq, Visit.entriesOf_eq, visit, visit, type_erase]
      split
      case isTrue => exact (edges_erased builtins (.node label children)).1
      case isFalse => exact edges_entriesBelow children

theorem edges_entriesBelow : ∀ trees,
    (visit.entriesBelow (eraseAll (fun label => IsKeyword label) trees)).flatMap
        (Entry.edges builtins) =
      (visit.entriesBelow trees).flatMap (Entry.edges builtins)
  | [] => rfl
  | tree :: rest => by
      have hfirst := edges_entriesOf tree
      have hrest := edges_entriesBelow rest
      rw [eraseAll, Visit.entriesBelow, Visit.entriesBelow, List.flatMap_append, List.flatMap_append,
        hfirst, hrest]

end

end Edges

theorem looksPast_erased : declarationRule.LooksPast fun label => IsKeyword label where
  isDeclaration tree := by
    have hdeclaration := isDeclaration_reading (erased tree)
    rw [type_erase] at hdeclaration
    exact hdeclaration
  isNested tree := by
    have hnested := isNested_reading (erased tree)
    rw [type_erase] at hnested
    exact hnested
  holdsMembers _ := rfl
  name? := nameOf?_erased

/-! ## Another keyword -/

/-- Trees that differ in the keyword of one declaration, which is at a position.  The keyword is a leaf,
and the first child that is held as a keyword. -/
inductive Rekeyed (raw : RawText) : List Nat → Tree → Tree → Prop where
  | here {label keyword : Label} {before after : List Tree}
      (htype : label.type = "class_declaration")
      (hbefore : ∀ child ∈ before, child.isUnder "declaration_kind" = false)
      (hkeyword : IsKeyword keyword) :
      Rekeyed raw [] (.node label (before ++ .node keyword [] :: after))
        (.node label (before ++ .node { keyword with raw } [] :: after))
  | inside {label : Label} {before after : List Tree} {tree other : Tree} {position : List Nat}
      (hbelow : Rekeyed raw position tree other) :
      Rekeyed raw (before.length :: position) (.node label (before ++ tree :: after))
        (.node label (before ++ other :: after))

/-- The kind of a declaration shows in the labels of the declaration and its children. -/
theorem kindOf?_congr_labels {label : Label} {children others : List Tree}
    (hlabels : others.map Tree.label = children.map Tree.label) :
    kindOf? (.node label others) = kindOf? (.node label children) := by
  have hfield : ∀ children : List Tree,
      ((Syntax.Tree.node label children).field? "declaration_kind").map Tree.label =
        (children.map Tree.label).find? fun below => below.fields.contains "declaration_kind" := by
    intro children
    rw [List.find?_map]
    rfl
  have htoken : ∀ children : List Tree, (Syntax.Tree.node label children).hasToken = fun token =>
      (children.map Tree.label).any fun below => !below.named && below.raw.decode == token := by
    intro children
    funext token
    rw [List.any_map]
    rfl
  have hkeyword : keywordOf (.node label others) = keywordOf (.node label children) := by
    have hsame := hfield others
    rw [hlabels, ← hfield children] at hsame
    rw [keywordOf, keywordOf, htoken, htoken, hlabels]
    generalize (Syntax.Tree.node label others).field? "declaration_kind" = found at hsame ⊢
    generalize (Syntax.Tree.node label children).field? "declaration_kind" = another at hsame ⊢
    cases found <;> cases another <;> simp_all [Tree.text]
  rw [kindOf?, kindOf?, hkeyword]
  rfl

theorem getElem?_replace {before after : List α} {item other : α} {index : Nat}
    (hindex : index ≠ before.length) :
    (before ++ other :: after)[index]? = (before ++ item :: after)[index]? := by
  grind

namespace Rekeyed

variable {raw : RawText} {position : List Nat} {root : Tree}

theorem label_eq (hrekeyed : Rekeyed raw position root other) : other.label = root.label := by
  cases hrekeyed <;> rfl

theorem erased_eq (hrekeyed : Rekeyed raw position root other) : erased other = erased root := by
  induction hrekeyed with
  | @here label keyword before after _ _ hkeyword =>
      have hother : IsKeyword { keyword with raw } := ⟨hkeyword.held, hkeyword.alone, hkeyword.type_ne⟩
      have hlabel : Label.erase (fun label => IsKeyword label) { keyword with raw } =
          Label.erase (fun label => IsKeyword label) keyword := by
        rw [Label.erase, Label.erase, if_pos (decide_eq_true hkeyword), if_pos (decide_eq_true hother)]
      simp only [erased, erase_node, List.map_append, List.map_cons, List.map_nil, hlabel]
  | inside _ ih =>
      simp only [erased, erase_node, List.map_append, List.map_cons] at ih ⊢
      rw [ih]

theorem hasRows (hrekeyed : Rekeyed raw position root other) (hrows : root.HasRows) :
    other.HasRows := by
  induction hrekeyed with
  | here =>
      simp only [hasRows_node, List.forall_mem_append, List.forall_mem_cons] at hrows ⊢
      exact hrows
  | inside _ ih =>
      simp only [hasRows_node, List.forall_mem_append, List.forall_mem_cons] at hrows ⊢
      exact ⟨hrows.1, hrows.2.1, ih hrows.2.2.1, hrows.2.2.2⟩

/-- Everywhere else, declarations are of the same kind. -/
theorem kindOf?_eq (hrekeyed : Rekeyed raw position root other) {place : List Nat}
    (hplace : place ≠ position) : (other.at? place).map kindOf? = (root.at? place).map kindOf? := by
  induction hrekeyed generalizing place with
  | @here label keyword before after =>
      cases place with
      | nil => exact absurd rfl hplace
      | cons index rest =>
          rw [at?_cons, at?_cons, children_node, children_node]
          -- The keyword is a leaf, and a kind does not show in the text of the declaration itself.
          by_cases hindex : index = before.length
          · subst hindex
            simp only [List.getElem?_append_right, Nat.le_refl, Nat.sub_self, List.getElem?_cons_zero,
              Option.bind_some]
            cases rest <;> rfl
          · rw [getElem?_replace hindex]
  | @inside label before after tree other position hbelow ih =>
      cases place with
      | nil =>
          refine congrArg some (kindOf?_congr_labels ?_)
          rw [List.map_append, List.map_append, List.map_cons, List.map_cons, hbelow.label_eq]
      | cons index rest =>
          rw [at?_cons, at?_cons, children_node, children_node]
          by_cases hindex : index = before.length
          · subst hindex
            have hrest : rest ≠ position := fun hrest => hplace (by rw [hrest])
            simpa using ih hrest
          · rw [getElem?_replace hindex]

/-- At the position there is a declaration with a keyword, and with the other one. -/
theorem at_position (hrekeyed : Rekeyed raw position root other) :
    ∃ declaration changed, root.at? position = some declaration ∧
      other.at? position = some changed ∧ declaration.type = "class_declaration" ∧
      erased changed = erased declaration ∧ keywordOf changed = raw.decode := by
  induction hrekeyed with
  | @here label keyword before after htype hbefore hkeyword =>
      refine ⟨_, _, rfl, rfl, htype, (here htype hbefore hkeyword).erased_eq, ?_⟩
      have hunder : (Syntax.Tree.node { keyword with raw } []).isUnder "declaration_kind" = true :=
        List.contains_iff_mem.mpr hkeyword.held
      rw [keywordOf, field?_node_append hbefore hunder]
      rfl
  | inside _ ih => simpa using ih

end Rekeyed

/-! ## The nodes of a file -/

/-- The node for what is declared, in a file. -/
def nodeFor? (file : String) (declaration : Declaration) : Option Node :=
  Entry.node? file (.declared declaration.name declaration.kind (declaration.line - 1))

theorem declaration?_eq (tree : Tree) : declarationRule.declaration? tree =
    (nameOf? tree).bind fun name => (kindOf? tree).map fun kind => ⟨name, kind, tree.startLine⟩ := rfl

/-- The node for what is declared at a position. -/
def nodeAt? (root : Tree) (file : String) (position : List Nat) : Option Node :=
  ((root.at? position).bind declarationRule.declaration?).bind (nodeFor? file)

/-- A fragment has a node for each declaration. -/
theorem nodes_ofEntries (file : String) (builtins : List String) (entries : List Entry) :
    (Fragment.ofEntries file builtins entries).nodes =
      (entries.filterMap Entry.declaration?).filterMap (nodeFor? file) := by
  rw [Fragment.ofEntries, List.filterMap_filterMap]
  refine List.filterMap_congr fun entry _ => ?_
  cases entry with
  | declared name kind row => simp [Entry.declaration?, nodeFor?]
  | refers owner names kind => rfl

variable {root : Tree} {file : String} {position : List Nat}

/-- The nodes of a file are those at the positions that are taken. -/
theorem extract_eq_takenIn (hrows : root.HasRows) (file : String) :
    Extractor.swift.extract root file =
      .ok ⟨(declarationRule.takenIn root).filterMap (nodeAt? root file),
        (visit.entriesOf root).flatMap (Entry.edges builtins)⟩ := by
  have hvisit : Extractor.swift.visit? = some visit := rfl
  have hnodes := nodes_ofEntries file builtins (visit.entriesOf root)
  have hdeclarations := Visit.declarations_entriesOf isRuledBy_visit root
  rw [hdeclarations, ← DeclarationRule.declarationsIn_eq, DeclarationRule.declarationsIn,
    List.filterMap_filterMap] at hnodes
  have hextract := Extractor.extract_of_valid hvisit
    (Extractor.isValid_of_isWithin isWithin_visit hrows) file
  rw [hextract]
  show Except.ok (Fragment.mk (Fragment.ofEntries file builtins (visit.entriesOf root)).nodes _) = _
  rw [hnodes]
  rfl

/-- What is read in a list without duplicates is read alike around the only item that may be read
differently. -/
theorem exists_filterMap_around {items : List α} (hnodup : items.Nodup) (item : α)
    [Decidable (item ∈ items)] {read other : α → Option β}
    (hsame : ∀ another, another ≠ item → other another = read another) :
    ∃ before after,
      items.filterMap read =
          before ++ (if item ∈ items then (read item).toList else []) ++ after ∧
        items.filterMap other =
          before ++ (if item ∈ items then (other item).toList else []) ++ after := by
  have hothers : ∀ part : List α, item ∉ part → part.filterMap other = part.filterMap read := by
    intro part hpart
    refine List.filterMap_congr fun another hanother => hsame another ?_
    rintro rfl
    exact hpart hanother
  by_cases hitem : item ∈ items
  · obtain ⟨before, after, rfl⟩ := List.append_of_mem hitem
    obtain ⟨hafter, hbefore⟩ : item ∉ after ∧ item ∉ before := by
      rw [List.nodup_middle, List.nodup_cons, List.mem_append, not_or] at hnodup
      exact hnodup.1.symm
    have hparts : ∀ read : α → Option β, (before ++ item :: after).filterMap read =
        before.filterMap read ++ (read item).toList ++ after.filterMap read := by
      intro read
      rw [List.filterMap_append, List.filterMap_cons]
      cases read item <;> simp
    refine ⟨before.filterMap read, after.filterMap read, ?_, ?_⟩
    · rw [if_pos hitem, hparts]
    · rw [if_pos hitem, hparts, hothers before hbefore, hothers after hafter]
  · refine ⟨items.filterMap read, [], ?_, ?_⟩
    · rw [if_neg hitem, List.append_nil, List.append_nil]
    · rw [if_neg hitem, List.append_nil, List.append_nil, hothers items hitem]

/-- What shows of a declaration without its keyword. -/
theorem alike_of_erased_eq {changed : Tree} (herased : erased changed = erased tree) :
    changed.type = tree.type ∧ nameOf? changed = nameOf? tree ∧ changed.startLine = tree.startLine := by
  have htype := congrArg Tree.type herased
  have hname := congrArg nameOf? herased
  have hline := congrArg Tree.startLine herased
  rw [type_erase, type_erase] at htype
  rw [nameOf?_erased, nameOf?_erased] at hname
  rw [startLine_erase, startLine_erase] at hline
  exact ⟨htype, hname, hline⟩

/-- What a keyword makes of a declaration: a node, unless the declaration is not taken or extends. -/
structure FollowsKeyword (isTaken : Prop) (declaration : Tree) (keyword file : String)
    (nodes : List Node) : Prop where
  node : isTaken → keyword ≠ "extension" → ∃ node, nodes = [node] ∧
    nameOf? declaration = some node.name ∧
    node.kind = (if keyword = "enum" then .enumType else .classType) ∧
    (node.line : Int) = declaration.startLine ∧ node.file = file
  no_node : ¬ isTaken ∨ keyword = "extension" → nodes = []

/-- The node of a declaration follows its keyword. -/
theorem followsKeyword_nodeAt? (hrows : root.HasRows) {declaration : Tree}
    (hposition : root.at? position = some declaration)
    (htype : declaration.type = "class_declaration") (file : String) :
    FollowsKeyword (declarationRule.Taken root position) declaration (keywordOf declaration) file
      (if position ∈ declarationRule.takenIn root then (nodeAt? root file position).toList
      else []) := by
  have hrow : 0 ≤ declaration.label.row := hrows declaration (contains_of_at? hposition)
  have hline : declaration.startLine - 1 = declaration.label.row := Int.add_sub_cancel _ 1
  have hkind : kindOf? declaration = kindOfKeyword? (keywordOf declaration) := by
    simp [kindOf?, htype]
  have hdeclares : nodeAt? root file position = ((nameOf? declaration).bind fun name =>
      (kindOfKeyword? (keywordOf declaration)).map fun kind =>
        ⟨name, kind, declaration.startLine⟩).bind (nodeFor? file) := by
    rw [nodeAt?, hposition, ← hkind, Option.bind_some, declaration?_eq]
  constructor
  · intro htaken hkeyword
    obtain ⟨name, hname⟩ := Option.isSome_iff_exists.mp (htaken.isSome_name? hposition)
    have hname : nameOf? declaration = some name := hname
    have hkeywordKind : kindOfKeyword? (keywordOf declaration) =
        some (if keywordOf declaration = "enum" then .enumType else .classType) := by
      rw [kindOfKeyword?, if_neg hkeyword]
      split <;> rfl
    rw [hname, hkeywordKind, Option.bind_some, Option.map_some, Option.bind_some, nodeFor?, hline,
      Entry.node?, dif_pos ⟨nameOf?_ne hname, hrow⟩] at hdeclares
    rw [if_pos (DeclarationRule.mem_takenIn_iff.mpr htaken), hdeclares]
    refine ⟨_, rfl, hname, rfl, ?_, rfl⟩
    rw [startLine, Int.natCast_add, Int.toNat_of_nonneg hrow]
    rfl
  · rintro (htaken | hkeyword)
    · rw [if_neg (mt DeclarationRule.mem_takenIn_iff.mp htaken)]
    · have hnone : kindOfKeyword? (keywordOf declaration) = none := by rw [hkeyword]; rfl
      rw [hdeclares, hnone]
      cases nameOf? declaration <;> simp

theorem FollowsKeyword.congr {isTaken isTakenToo : Prop} {declaration changed : Tree}
    {keyword file : String} {nodes : List Node} (htaken : isTakenToo ↔ isTaken)
    (herased : erased changed = erased declaration)
    (hfollows : FollowsKeyword isTakenToo changed keyword file nodes) :
    FollowsKeyword isTaken declaration keyword file nodes := by
  obtain ⟨-, hname, hline⟩ := alike_of_erased_eq herased
  rw [← propext htaken]
  refine ⟨?_, hfollows.no_node⟩
  rw [← hname, ← hline]
  exact hfollows.node

/-- Everywhere else, trees with another keyword ask for the same node. -/
theorem Rekeyed.nodeAt?_eq {raw : RawText} (hrekeyed : Rekeyed raw position root other) (file : String)
    {place : List Nat} (hplace : place ≠ position) :
    nodeAt? other file place = nodeAt? root file place := by
  have hkind := hrekeyed.kindOf?_eq hplace
  have herased := congrArg (fun tree => tree.at? place) hrekeyed.erased_eq
  simp only [at?_erase] at herased
  rw [nodeAt?, nodeAt?]
  cases hother : other.at? place with
  | none =>
      rw [hother] at herased
      rw [Option.map_eq_none_iff.mp herased.symm]
  | some changed =>
      cases hroot : root.at? place with
      | none =>
          rw [hother, hroot] at herased
          cases herased
      | some tree =>
          rw [hother, hroot] at hkind herased
          have herased : erased changed = erased tree := Option.some.inj herased
          have hkind : kindOf? changed = kindOf? tree := Option.some.inj hkind
          obtain ⟨-, hname, hline⟩ := alike_of_erased_eq herased
          rw [Option.bind_some, Option.bind_some, declaration?_eq, declaration?_eq, hname, hkind, hline]

/-- **The keyword of a declaration decides its own node**, and nothing else: the edges of a file, and
all other nodes, are the same for another keyword. -/
theorem keyword_decides_own_node {raw : RawText} (hrows : root.HasRows)
    (hrekeyed : Rekeyed raw position root other) (file : String) :
    ∃ declaration before own changed after edges,
      root.at? position = some declaration ∧
      Extractor.swift.extract root file = .ok ⟨before ++ own ++ after, edges⟩ ∧
      Extractor.swift.extract other file = .ok ⟨before ++ changed ++ after, edges⟩ ∧
      FollowsKeyword (declarationRule.Taken root position) declaration (keywordOf declaration) file
        own ∧
      FollowsKeyword (declarationRule.Taken root position) declaration raw.decode file changed := by
  obtain ⟨declaration, changed, hat, hotherAt, htype, herased, hkeyword⟩ := hrekeyed.at_position
  -- What does not ask for keywords is the same for both trees, since it is for their erasure.
  have hotherRows := hrekeyed.hasRows hrows
  have hotherType : changed.type = "class_declaration" := (alike_of_erased_eq herased).1.trans htype
  have htaken := congrArg declarationRule.takenIn hrekeyed.erased_eq
  rw [looksPast_erased.takenIn, looksPast_erased.takenIn] at htaken
  have hedges : (visit.entriesOf other).flatMap (Entry.edges builtins) =
      (visit.entriesOf root).flatMap (Entry.edges builtins) := by
    rw [← edges_entriesOf, hrekeyed.erased_eq, edges_entriesOf]
  have hnodup : (declarationRule.takenIn root).Nodup :=
    (declarationRule.pairwise_takenIn root).imp fun hlt heq => absurd (heq ▸ hlt) (List.lt_irrefl _)
  -- No position is taken twice, so the nodes are split at the one that may differ.
  have hplaces : ∀ place, place ≠ position → nodeAt? other file place = nodeAt? root file place :=
    fun place hplace => hrekeyed.nodeAt?_eq file hplace
  obtain ⟨before, after, hnodes, hotherNodes⟩ := exists_filterMap_around hnodup position hplaces
  have hown := followsKeyword_nodeAt? hrows hat htype file
  have hchanged := followsKeyword_nodeAt? hotherRows hotherAt hotherType file
  have hsame : declarationRule.Taken other position ↔ declarationRule.Taken root position := by
    rw [← DeclarationRule.mem_takenIn_iff, htaken, DeclarationRule.mem_takenIn_iff]
  rw [htaken, hkeyword] at hchanged
  have hchanged := hchanged.congr hsame herased
  refine ⟨declaration, before, _, _, after, (visit.entriesOf root).flatMap (Entry.edges builtins),
    hat, ?_, ?_, hown, hchanged⟩
  · rw [extract_eq_takenIn hrows, hnodes]
  · rw [extract_eq_takenIn hotherRows, htaken, hotherNodes, hedges]

/-- A class with a class in it, where the keyword of the outer one has some text. -/
def classWithKeyword (raw : RawText) : Tree :=
  .node { type := "source_file" }
    [.node { type := "class_declaration" }
      [.node { type := "class", named := false, fields := ["declaration_kind"], raw } [],
        .node { type := "type_identifier", fields := ["name"], raw := .plain "Outer" } [],
        .node { type := "inheritance_specifier" }
          [.node { type := "type_identifier", raw := .plain "Base" } []],
        .node { type := "class_body", fields := ["body"] }
          [.node { type := "class_declaration" }
            [.node { type := "type_identifier", fields := ["name"], raw := .plain "Inner" } []]]]]

theorem rekeyed_classWithKeyword (raw other : RawText) :
    Rekeyed other [0] (classWithKeyword raw) (classWithKeyword other) := by
  have hkeyword : IsKeyword { type := "class", named := false, fields := ["declaration_kind"], raw } :=
    ⟨by simp, by simp, by simp⟩
  exact @Rekeyed.inside other _ [] [] _ _ _ (@Rekeyed.here other _ _ [] _ rfl nofun hkeyword)

theorem keyword_decides_own_node_classWithKeyword :
    (classWithKeyword (.plain "class")).HasRows ∧
      Rekeyed (.plain "extension") [0] (classWithKeyword (.plain "class"))
        (classWithKeyword (.plain "extension")) ∧
      ∃ before node after edges,
        Extractor.swift.extract (classWithKeyword (.plain "class")) "" =
          .ok ⟨before ++ [node] ++ after, edges⟩ ∧
        Extractor.swift.extract (classWithKeyword (.plain "extension")) "" =
          .ok ⟨before ++ after, edges⟩ ∧
        node.kind = .classType := by
  have hrows : (classWithKeyword (.plain "class")).HasRows := by
    simp [classWithKeyword, hasRows_node]
  have hrekeyed := rekeyed_classWithKeyword (.plain "class") (.plain "extension")
  have htaken : declarationRule.Taken (classWithKeyword (.plain "class")) [0] := by decide +kernel
  obtain ⟨declaration, before, own, changed, after, edges, hat, hextract, hother, hown, hchanged⟩ :=
    keyword_decides_own_node hrows hrekeyed ""
  have hkeyword : keywordOf declaration = "class" := by
    obtain rfl := Option.some.inj hat
    rfl
  rw [hkeyword] at hown
  obtain ⟨node, rfl, -, hkind, -⟩ := hown.node htaken (by decide)
  obtain rfl := hchanged.no_node (.inr rfl)
  rw [List.append_nil] at hother
  exact ⟨hrows, hrekeyed, before, node, after, edges, hextract, hother, hkind⟩

end Swift
end TypeAtlas
