import TypeAtlas.Proofs.Extraction.Comments
import TypeAtlas.Proofs.Extraction.NameOrder

/-!
# Sources with comments

For each language, that comments make no difference at a single node: it looks for children by their
fields and types, and no comment has a field or one of these types.  Java is different in one place.  A
parameter for a variable number of arguments holds its type under no field, so the type is the first
child that is neither modifiers nor name; a comment that comes before it is taken for it, and then the
parameter has no names.  So either comments keep the names (`Java.KeepsNames`), or names are missing but
none is added; `Java.RelatesParameters` covers both.

`Extractor.passes_over_comments` puts the languages together.
-/

namespace TypeAtlas

open Syntax Entry Tree

variable {types : List String} {fits : Fitting} {tree other : Tree} {trees others : List Tree}

/-! ## Go -/

namespace Go

def commentTypes : List String := ["comment"]

theorem type_of_isComment (hcomment : tree.IsComment commentTypes) : tree.type = "comment" :=
  List.mem_singleton.mp hcomment.type

theorem passesOver_typeRule : typeRule.PassesOver commentTypes fits where
  find tree other hcommented := by
    have hname := map_of_rel ignoresComments_text (hcommented.field? "name")
    have hfind : ∀ tree, typeRule.find tree = find tree := fun _ => rfl
    rw [hfind, hfind, find, find, hcommented.type_eq, hcommented.text_eq, ← Option.toList_map,
      ← Option.toList_map, hname]
    split
    · exact ⟨rfl, .nil⟩
    split
    · exact ⟨rfl, .nil⟩
    split
    · exact ⟨rfl, .nil⟩
    · exact ⟨rfl, hcommented.children⟩
  comment tree hcomment := by
    have hfind : typeRule.find tree = find tree := rfl
    rw [hfind, find, type_of_isComment hcomment, hcomment.children]
    rfl

variable {owner : String}

theorem ignoresComments_parameterEntries :
    IgnoresComments commentTypes fits (parameterEntries owner) := by
  intro tree other hcommented
  exact flatMap_of_forall₂ (passesOver_typeRule.references_field owner "type" _)
    (hcommented.namedChildren_filter (seeks_type (by decide)))

theorem ignoresComments_signatureEntries :
    IgnoresComments commentTypes fits (signatureEntries owner) := by
  intro tree other hcommented
  have hparameters := forall₂_toList (hcommented.field? "parameters")
  rw [signatureEntries, signatureEntries,
    flatMap_of_forall₂ ignoresComments_parameterEntries hparameters,
    passesOver_typeRule.references (hcommented.field? "result")]

theorem ignoresComments_firstName : IgnoresComments commentTypes fits firstName :=
  passesOver_typeRule.namesIn.map (List.take 1)

theorem ignoresComments_fieldEntries : IgnoresComments commentTypes fits (fieldEntries owner) := by
  intro tree other hcommented
  have hname := hcommented.field? "name"
  have htype := hcommented.field? "type"
  have hfound := hcommented.findChild? ["type_identifier", "qualified_type"] (by decide)
  have hembedded := forall₂_toList (rel_or htype hfound)
  have hrefers : IgnoresComments commentTypes fits fun tree =>
      Entry.refers owner (firstName tree) .extension :=
    ignoresComments_firstName.map fun names => Entry.refers owner names .extension
  rw [fieldEntries, fieldEntries, passesOver_typeRule.references htype,
    map_of_forall₂ hrefers hembedded]
  generalize tree.field? "name" = found, other.field? "name" = another at hname ⊢
  cases hname <;> rfl

theorem ignoresComments_structEntries : IgnoresComments commentTypes fits (structEntries owner) := by
  intro tree other hcommented
  have hfields : IgnoresComments commentTypes fits fun fields =>
      (fields.childrenOf ["field_declaration"]).flatMap (fieldEntries owner) := by
    intro fields another hbelow
    exact flatMap_of_forall₂ ignoresComments_fieldEntries
      (hbelow.childrenOf ["field_declaration"] (by decide))
  have hfound := hcommented.findChild? ["field_declaration_list"] (by decide)
  exact flatMap_of_forall₂ hfields (forall₂_toList hfound)

theorem ignoresComments_memberEntries : IgnoresComments commentTypes fits (memberEntries owner) := by
  intro tree other hcommented
  rw [memberEntries, memberEntries, hcommented.type_eq,
    ignoresComments_signatureEntries tree other hcommented,
    passesOver_typeRule.namesIn tree other hcommented]

theorem memberEntries_comment (hcomment : tree.IsComment commentTypes) :
    memberEntries owner tree = [] := by
  rw [memberEntries, type_of_isComment hcomment]
  rfl

theorem ignoresComments_specEntries : IgnoresComments commentTypes fits specEntries := by
  intro tree other hcommented
  have htype := hcommented.field? "type"
  rw [specEntries, specEntries, ignoresComments_declaredName? tree other hcommented,
    hcommented.label_eq]
  generalize tree.field? "type" = found, other.field? "type" = another at htype ⊢
  cases htype with
  | none => rfl
  | some hbelow =>
      cases declaredName? tree with
      | none => rfl
      | some name =>
          have hmembers := hbelow.namedChildren.flatMap (fun _ => @memberEntries_comment _ name)
            fun child _ => ignoresComments_memberEntries child
          simp only [hbelow.type_eq, ignoresComments_structEntries _ _ hbelow, hmembers]

theorem forall₂_receiverTypes (hcommented : Commented commentTypes fits tree other) :
    List.Forall₂ (Commented commentTypes fits) (receiverTypes tree) (receiverTypes other) := by
  have hfound := hcommented.findChild? ["parameter_list"] (by decide)
  have hholder := forall₂_toList (rel_or (hcommented.field? "receiver") hfound)
  exact List.rel_flatMap hholder fun _ _ hnode =>
    List.rel_filterMap (fun _ _ hparameter => hparameter.field? "type")
      (hnode.childrenOf ["parameter_declaration"] (by decide))

theorem ignoresComments_receiver? : IgnoresComments commentTypes fits receiver? := by
  intro tree other hcommented
  have htypes := forall₂_receiverTypes hcommented
  rw [receiver?_eq, receiver?_eq]
  generalize receiverTypes tree = types, receiverTypes other = others at htypes ⊢
  cases htypes with
  | nil => rfl
  | cons htype _ =>
      rw [List.head?_cons, List.head?_cons, Option.bind_some, Option.bind_some,
        passesOver_typeRule.namesIn _ _ htype]

theorem ignoresComments_visit : IgnoresComments commentTypes fits visit := by
  intro tree other hcommented
  have hspecs := hcommented.childrenOf ["type_spec"] (by decide)
  rw [visit, visit, hcommented.type_eq, ignoresComments_receiver? tree other hcommented,
    flatMap_of_forall₂ ignoresComments_specEntries hspecs]
  simp only [ignoresComments_signatureEntries tree other hcommented]

theorem passesOver_visit : visit.PassesOver Eq commentTypes fits := by
  refine Visit.passesOver_of_ignores ignoresComments_visit fun tree hcomment => ?_
  rw [visit, type_of_isComment hcomment]
  rfl

end Go

/-! ## TypeScript -/

namespace TypeScript

def commentTypes : List String := ["comment"]

/-- A qualified name has its last segment under a field. -/
def HasSegment (tree : Tree) : Prop :=
  tree.type = "nested_type_identifier" → (tree.field? "name").isSome = true

/-- Comments are put anywhere, and qualified names have their last segments under a field. -/
def Segmented : Fitting := fun label children _ => HasSegment (.node label children)

theorem type_of_isComment (hcomment : tree.IsComment commentTypes) : tree.type = "comment" :=
  List.mem_singleton.mp hcomment.type

/-- The last segment of a qualified name. -/
theorem segment_of_commented (htype : tree.type = "nested_type_identifier")
    (hcommented : Commented commentTypes Segmented tree other) :
    ((other.field? "name").or other.lastNamedChild?).map text =
      ((tree.field? "name").or tree.lastNamedChild?).map text := by
  have hsegment : (tree.field? "name").isSome = true := by
    cases hcommented with
    | node hfits _ => exact hfits htype
  have hname := hcommented.field? "name"
  generalize tree.field? "name" = found, other.field? "name" = another at hsegment hname ⊢
  cases hname with
  | none => cases hsegment
  | some hbelow => exact congrArg some hbelow.text_eq

theorem alike_find (inExpression : Bool)
    (hcommented : Commented commentTypes Segmented tree other) :
    (find inExpression tree).Alike commentTypes Segmented (find inExpression other) := by
  have hproperty := map_of_rel ignoresComments_text (hcommented.field? "property")
  rw [find, find, hcommented.type_eq, hcommented.text_eq]
  split
  · exact ⟨rfl, .nil⟩
  split
  · exact ⟨rfl, .nil⟩
  split
  case isTrue hnested =>
    have hsegment := segment_of_commented hnested hcommented
    refine ⟨?_, .nil⟩
    rw [← Option.toList_map, ← Option.toList_map, hsegment]
  case isFalse =>
  split
  · refine ⟨?_, .nil⟩
    rw [← Option.toList_map, ← Option.toList_map, hproperty]
  split
  · exact ⟨rfl, .nil⟩
  · exact ⟨rfl, hcommented.children⟩

theorem find_comment (inExpression : Bool) (hcomment : tree.IsComment commentTypes) :
    find inExpression tree = ⟨[], []⟩ := by
  rw [find, type_of_isComment hcomment, hcomment.children]
  rfl

theorem passesOver_typeRule : typeRule.PassesOver commentTypes Segmented where
  find _ _ := alike_find false
  comment _ := find_comment false

theorem passesOver_expressionRule : expressionRule.PassesOver commentTypes Segmented where
  find _ _ := alike_find true
  comment _ := find_comment true

variable {owner : String}

theorem ignoresComments_headingEntries :
    IgnoresComments commentTypes Segmented (headingEntries owner) := by
  intro tree other hcommented
  rw [headingEntries, headingEntries, hcommented.type_eq,
    passesOver_typeRule.namesIn tree other hcommented,
    passesOver_expressionRule.namesIn tree other hcommented]

theorem headingEntries_comment (hcomment : tree.IsComment commentTypes) :
    headingEntries owner tree = [] := by
  rw [headingEntries, type_of_isComment hcomment]
  rfl

theorem ignoresComments_heritageEntries :
    IgnoresComments commentTypes Segmented (heritageEntries owner) := by
  intro tree other hcommented
  have hclauses : other.children.flatMap (headingEntries owner) =
      tree.children.flatMap (headingEntries owner) :=
    hcommented.children.flatMap (fun _ => headingEntries_comment)
      fun clause _ => ignoresComments_headingEntries clause
  rw [heritageEntries, heritageEntries, hcommented.type_eq, hclauses,
    ignoresComments_headingEntries tree other hcommented]

theorem heritageEntries_comment (hcomment : tree.IsComment commentTypes) :
    heritageEntries owner tree = [] := by
  rw [heritageEntries, type_of_isComment hcomment, headingEntries_comment hcomment]
  rfl

theorem ignoresComments_parameterEntries :
    IgnoresComments commentTypes Segmented (parameterEntries owner) := by
  intro tree other hcommented
  exact flatMap_of_forall₂ (passesOver_typeRule.references_field owner "type" _)
    (hcommented.namedChildren_filter (seeks_type (by decide)))

theorem ignoresComments_memberEntries :
    IgnoresComments commentTypes Segmented (memberEntries owner) := by
  intro tree other hcommented
  rw [memberEntries, memberEntries, hcommented.type_eq,
    passesOver_typeRule.references (hcommented.field? "type"),
    passesOver_typeRule.references (hcommented.field? "return_type"),
    flatMap_of_forall₂ ignoresComments_parameterEntries
      (forall₂_toList (hcommented.field? "parameters"))]

theorem memberEntries_comment (hcomment : tree.IsComment commentTypes) :
    memberEntries owner tree = [] := by
  rw [memberEntries, type_of_isComment hcomment]
  rfl

theorem ignoresComments_classEntries (kind : NodeKind) :
    IgnoresComments commentTypes Segmented (classEntries kind) := by
  intro tree other hcommented
  have hheading : ∀ owner, other.children.flatMap (heritageEntries owner) =
      tree.children.flatMap (heritageEntries owner) := fun owner =>
    hcommented.children.flatMap (fun _ => heritageEntries_comment)
      fun child _ => ignoresComments_heritageEntries child
  have hmembers : ∀ owner, IgnoresComments commentTypes Segmented fun body =>
      body.namedChildren.flatMap (memberEntries owner) := fun owner _ _ hbody =>
    hbody.namedChildren.flatMap (fun _ => memberEntries_comment)
      fun member _ => ignoresComments_memberEntries member
  rw [classEntries, classEntries, ignoresComments_declaredName? tree other hcommented,
    hcommented.label_eq]
  cases declaredName? tree with
  | none => rfl
  | some name =>
      simp only [hheading, flatMap_of_forall₂ (hmembers name)
        (forall₂_toList (hcommented.field? "body"))]

theorem ignoresComments_aliasEntries : IgnoresComments commentTypes Segmented aliasEntries := by
  intro tree other hcommented
  rw [aliasEntries, aliasEntries, ignoresComments_declaredName? tree other hcommented,
    hcommented.label_eq]
  cases declaredName? tree with
  | none => rfl
  | some name => simp only [passesOver_typeRule.references (hcommented.field? "value")]

theorem ignoresComments_enumEntries : IgnoresComments commentTypes fits enumEntries := by
  intro tree other hcommented
  rw [enumEntries, enumEntries, ignoresComments_declaredName? tree other hcommented,
    hcommented.label_eq]

theorem ignoresComments_visit : IgnoresComments commentTypes Segmented visit := by
  intro tree other hcommented
  simp only [visit, hcommented.type_eq, ignoresComments_classEntries _ tree other hcommented,
    ignoresComments_aliasEntries tree other hcommented,
    ignoresComments_enumEntries tree other hcommented]

theorem passesOver_visit : visit.PassesOver Eq commentTypes Segmented := by
  refine Visit.passesOver_of_ignores ignoresComments_visit fun tree hcomment => ?_
  rw [visit, type_of_isComment hcomment]
  rfl

end TypeScript

/-! ## Swift -/

namespace Swift

def commentTypes : List String := ["comment", "multiline_comment"]

theorem type_of_isComment (hcomment : tree.IsComment commentTypes) :
    tree.type = "comment" ∨ tree.type = "multiline_comment" := by
  simpa [commentTypes] using hcomment.type

theorem passesOver_typeRule : typeRule.PassesOver commentTypes fits where
  find tree other hcommented := by
    have hsegments := hcommented.childrenOf ["type_identifier"] (by decide)
    have harguments := hcommented.childrenOf ["type_arguments"] (by decide)
    have hfind : ∀ tree, typeRule.find tree = find tree := fun _ => rfl
    rw [hfind, hfind, find, find, hcommented.type_eq, hcommented.text_eq]
    split
    · exact ⟨getLast?_of_forall₂ hsegments, .of_forall₂ harguments⟩
    split
    · exact ⟨rfl, .nil⟩
    · exact ⟨rfl, hcommented.children⟩
  comment tree hcomment := by
    have hfind : typeRule.find tree = find tree := rfl
    rw [hfind, find, hcomment.children]
    rcases type_of_isComment hcomment with htype | htype <;> rw [htype] <;> rfl

theorem ignoresComments_nameOf? : IgnoresComments commentTypes fits nameOf? := by
  intro tree other hcommented
  have hfound := hcommented.findChild? ["user_type", "type_identifier"] (by decide)
  have hname : Option.Rel (Commented commentTypes fits) (nameNode? tree) (nameNode? other) :=
    rel_or (hcommented.field? "name") hfound
  rw [nameOf?, nameOf?]
  generalize nameNode? tree = found, nameNode? other = another at hname ⊢
  cases hname with
  | none => rfl
  | some hnode => simp only [hnode.type_eq, hnode.text_eq, passesOver_typeRule.namesIn _ _ hnode]

theorem ignoresComments_kindOf? : IgnoresComments commentTypes fits kindOf? := by
  intro tree other hcommented
  have htoken : other.hasToken = tree.hasToken := funext hcommented.hasToken
  have hkeyword := hcommented.field? "declaration_kind"
  rw [kindOf?, kindOf?, hcommented.type_eq, keywordOf, keywordOf, htoken]
  generalize tree.field? "declaration_kind" = found, other.field? "declaration_kind" = another
    at hkeyword ⊢
  cases hkeyword with
  | none => rfl
  | some hbelow => simp only [hbelow.text_eq]

theorem ignoresComments_headingEntries (name : String) :
    IgnoresComments commentTypes fits (headingEntries name) := by
  intro tree other hcommented
  have hinherited := hcommented.childrenOf inheritanceTypes (by decide)
  rw [headingEntries, headingEntries, ignoresComments_kindOf? tree other hcommented,
    hcommented.label_eq, map_of_forall₂ (passesOver_typeRule.refers name _) hinherited]

theorem forall₂_annotations (hcommented : Commented commentTypes fits tree other) :
    List.Forall₂ (Commented commentTypes fits) (annotations tree) (annotations other) := by
  have htype := forall₂_toList (hcommented.field? "type")
  let found : Tree → List Tree := fun child =>
    if child.type = "type_annotation" then [child]
    else if child.type = "pattern_binding" then child.childrenOf ["type_annotation"]
    else []
  have hfound : List.Forall₂ (Commented commentTypes fits) (tree.children.flatMap found)
      (other.children.flatMap found) := by
    refine hcommented.children.flatMap_rel (concatenates_forall₂ _) (fun comment hcomment => ?_)
      fun child _ another hbelow => ?_
    · rcases type_of_isComment hcomment with htype | htype <;> simp only [found, htype] <;> rfl
    · simp only [found, hbelow.type_eq]
      split
      · exact .cons hbelow .nil
      split
      · exact hbelow.childrenOf ["type_annotation"] (by decide)
      · exact .nil
  have hchoose : ∀ {found another}, List.Forall₂ (Commented commentTypes fits) found another →
      List.Forall₂ (Commented commentTypes fits)
        (if found.isEmpty then (tree.field? "type").toList else found)
        (if another.isEmpty then (other.field? "type").toList else another) := by
    intro found another hfound
    cases hfound with
    | nil => exact htype
    | cons hfirst hrest => exact .cons hfirst hrest
  exact hchoose hfound

theorem forall₂_parameters (hcommented : Commented commentTypes fits tree other) :
    List.Forall₂ (Commented commentTypes fits) (parameters tree) (parameters other) := by
  have hown := hcommented.childrenOf ["parameter"] (by decide)
  have hfound := hcommented.findChild? ["function_value_parameters"] (by decide)
  have hholder := forall₂_toList (rel_or (hcommented.field? "parameters") hfound)
  have hheld := List.rel_flatMap hholder fun _ _ hnode =>
    hnode.namedChildren_filter (seeks_typeIs "parameter" (by decide))
  rw [parameters, parameters]
  generalize tree.childrenOf ["parameter"] = own, other.childrenOf ["parameter"] = another at hown ⊢
  cases hown with
  | nil => exact hheld
  | cons hfirst hrest => exact .cons hfirst hrest

theorem ignoresComments_memberEntries (owner : String) :
    IgnoresComments commentTypes fits (memberEntries owner) := by
  intro tree other hcommented
  rw [memberEntries, memberEntries, hcommented.type_eq,
    passesOver_typeRule.references (hcommented.field? "return_type"),
    map_of_forall₂ (passesOver_typeRule.refers owner _) (forall₂_annotations hcommented),
    flatMap_of_forall₂ (passesOver_typeRule.references_field owner "type" _)
      (forall₂_parameters hcommented)]

theorem memberEntries_comment {owner : String} (hcomment : tree.IsComment commentTypes) :
    memberEntries owner tree = [] := by
  rw [memberEntries]
  rcases type_of_isComment hcomment with htype | htype <;> rw [htype] <;> rfl

theorem passesOver_reading : reading.PassesOver Eq commentTypes fits where
  name? := ignoresComments_nameOf?
  heading name := (ignoresComments_headingEntries name).alikeButNames
  member owner := (ignoresComments_memberEntries owner).alikeButNames
  goesByLabels := goesByLabels_reading
  comment tree hcomment := by
    have hmember : ∀ owner, reading.member owner tree = [] := fun _ => memberEntries_comment hcomment
    rw [isDeclaration_reading, isNested_reading, holdsMembers_reading]
    rcases type_of_isComment hcomment with htype | htype <;> rw [htype] <;>
      exact ⟨rfl, rfl, rfl, hmember⟩

end Swift

/-! ## Java -/

namespace Java

def commentTypes : List String := ["line_comment", "block_comment"]

/-- The first child of a parameter that may be its type: a child besides the modifiers and the name. -/
def firstBesides? (children : List Tree) : Option Tree :=
  (children.filter isNamed).find? fun child => child.type ∉ besidesType

/-- Among the children of a parameter for a variable number of arguments, a comment comes before the type
only if the type has no names in it.  All other comments may be anywhere. -/
def KeepsNames : Fitting := fun label children others =>
  label.type = "spread_parameter" →
    ∀ type comment, firstBesides? children = some type → firstBesides? others = some comment →
      comment.IsComment commentTypes → typeRule.namesIn type = []

theorem type_of_isComment (hcomment : tree.IsComment commentTypes) :
    tree.type = "line_comment" ∨ tree.type = "block_comment" := by
  simpa [commentTypes] using hcomment.type

theorem forall₂_outerSegments (hcommented : Commented commentTypes fits tree other) :
    List.Forall₂ (Commented commentTypes fits) (outerSegments tree) (outerSegments other) :=
  List.forall₂_reverse_iff.mpr (hcommented.namedChildren_filter (seeks_type (by decide)))

theorem passesOver_typeRule : typeRule.PassesOver commentTypes fits where
  find tree other hcommented := by
    have hsegments := hcommented.namedChildren_filter (seeks_typeIs "type_identifier" (by decide))
    have harguments := List.rel_flatMap (forall₂_outerSegments hcommented) fun _ _ hsegment =>
      forall₂_toList (hsegment.findChild? ["type_arguments"] (by decide))
    have hfind : ∀ tree, typeRule.find tree = find tree := fun _ => rfl
    rw [hfind, hfind, find, find, hcommented.type_eq, hcommented.text_eq]
    split
    · exact ⟨rfl, .nil⟩
    split
    · exact ⟨getLast?_of_forall₂ hsegments, .of_forall₂ harguments⟩
    split
    · exact ⟨rfl, .nil⟩
    · exact ⟨rfl, hcommented.children⟩
  comment tree hcomment := by
    have hfind : typeRule.find tree = find tree := rfl
    rw [hfind, find, hcomment.children]
    rcases type_of_isComment hcomment with htype | htype <;> rw [htype] <;> rfl

theorem parameterNames_spread (htype : tree.type = "spread_parameter") :
    parameterNames tree = (firstBesides? tree.children).toList.flatMap typeRule.namesIn := by
  rw [parameterNames, htype, if_neg (by decide), if_pos rfl]
  rfl

/-- A comment that is taken for the type has no names in it. -/
theorem parameterNames_of_comment {comment : Tree} (htype : tree.type = "spread_parameter")
    (hfirst : firstBesides? tree.children = some comment) (hcomment : comment.IsComment commentTypes) :
    parameterNames tree = [] := by
  have hrule : typeRule.PassesOver commentTypes Anywhere := passesOver_typeRule
  rw [parameterNames_spread htype, hfirst, Option.toList_some, List.flatMap_singleton,
    hrule.namesIn_comment hcomment]

/-- The names of a parameter are found past comments, unless one of these is taken for its type. -/
theorem parameterNames_of_commented (hcommented : Commented commentTypes fits tree other) :
    parameterNames other = parameterNames tree ∨
      tree.type = "spread_parameter" ∧ ∃ comment, firstBesides? other.children = some comment ∧
        comment.IsComment commentTypes := by
  have hfound := hcommented.namedChildren.find?_of_label (fun child => child.type ∉ besidesType)
    fun child another hlabel => by rw [type, type, hlabel]
  rcases Classical.em (tree.type = "spread_parameter") with htype | htype
  · -- No field holds the type here, so a comment may be the first child that suits.
    rcases hfound with hcomment | hrel
    · exact .inr ⟨htype, hcomment⟩
    · left
      rw [parameterNames_spread htype, parameterNames_spread (hcommented.type_eq.trans htype)]
      exact flatMap_of_forall₂ passesOver_typeRule.namesIn (forall₂_toList hrel)
  · left
    rw [parameterNames, parameterNames, hcommented.type_eq, if_neg htype, if_neg htype,
      flatMap_of_forall₂ passesOver_typeRule.namesIn (forall₂_toList (hcommented.field? "type"))]

theorem parameterNames_comment (hcomment : tree.IsComment commentTypes) : parameterNames tree = [] := by
  rw [parameterNames]
  rcases type_of_isComment hcomment with htype | htype <;> rw [htype] <;> rfl

/-- How the names of a parameter are related to those of the same parameter with comments in it.  Names in
a row are then related as well. -/
structure RelatesParameters (relate : List String → List String → Prop) (fits : Fitting) : Prop where
  refl : ∀ names, relate names names
  concatenates : Concatenates relate
  names : ∀ tree other, Commented commentTypes fits tree other →
    relate (parameterNames tree) (parameterNames other)

/-- The names of a parameter are the same if comments keep them. -/
theorem relatesParameters_eq : RelatesParameters Eq KeepsNames where
  refl _ := rfl
  concatenates := concatenates_eq
  names tree other hcommented := by
    rcases parameterNames_of_commented hcommented with heq | ⟨htype, comment, hfirst, hcomment⟩
    · exact heq.symm
    · have hkeeps := hcommented.isFitting htype
      rw [parameterNames_of_comment (hcommented.type_eq.trans htype) hfirst hcomment,
        parameterNames_spread htype]
      cases htree : firstBesides? tree.children with
      | none => rfl
      | some type =>
          rw [Option.toList_some, List.flatMap_singleton, hkeeps type comment htree hfirst hcomment]

/-- No comment adds names to a parameter. -/
theorem relatesParameters_sublist :
    RelatesParameters (fun names others => others.Sublist names) Anywhere where
  refl _ := List.Sublist.refl _
  concatenates := concatenates_sublist
  names tree other hcommented := by
    rcases parameterNames_of_commented hcommented with heq | ⟨htype, comment, hfirst, hcomment⟩
    · rw [heq]
    · rw [parameterNames_of_comment (hcommented.type_eq.trans htype) hfirst hcomment]
      exact List.nil_sublist _

theorem memberEntries_comment {owner : String} (hcomment : tree.IsComment commentTypes) :
    memberEntries owner tree = [] := by
  rw [memberEntries]
  rcases type_of_isComment hcomment with htype | htype <;> rw [htype] <;> rfl

section Parameters

variable {relate : List String → List String → Prop} (hrelate : RelatesParameters relate fits)

include hrelate

theorem alike_parameterEntries (owner : String) (kind : EdgeKind)
    (hcommented : Commented commentTypes fits tree other) :
    AlikeButNames relate (parameterEntries owner kind tree) (parameterEntries owner kind other) := by
  have hparameters := hcommented.field? "parameters"
  rw [parameterEntries, parameterEntries]
  generalize tree.field? "parameters" = found, other.field? "parameters" = another at hparameters ⊢
  cases hparameters with
  | none => exact .nil
  | some hbelow =>
      refine .cons (.refers owner kind ?_) .nil
      exact hbelow.namedChildren.flatMap_rel hrelate.concatenates (fun _ => parameterNames_comment)
        fun parameter _ => hrelate.names parameter

theorem alike_references (owner : String) (kind : EdgeKind) {found another : Option Tree}
    (hrel : Option.Rel (Commented commentTypes fits) found another) :
    AlikeButNames relate (references typeRule owner kind found)
      (references typeRule owner kind another) := by
  rw [passesOver_typeRule.references hrel]
  exact alikeButNames_refl hrelate.refl _

theorem alike_memberEntries (owner : String) (hcommented : Commented commentTypes fits tree other) :
    AlikeButNames relate (memberEntries owner tree) (memberEntries owner other) := by
  have htype := fun kind => alike_references hrelate owner kind (hcommented.field? "type")
  rw [memberEntries, memberEntries, hcommented.type_eq]
  split
  · exact htype _
  split
  · exact List.rel_append (htype _) (alike_parameterEntries hrelate owner _ hcommented)
  · exact .nil

theorem alike_headingEntries (name : String) (kind : NodeKind)
    (hcommented : Commented commentTypes fits tree other) :
    AlikeButNames relate (headingEntries name kind tree) (headingEntries name kind other) := by
  have hextends := hcommented.findChild? ["extends_interfaces"] (by decide)
  rw [headingEntries, headingEntries, hcommented.label_eq, hcommented.type_eq]
  refine .cons (.declared name kind _) (List.rel_append (List.rel_append (List.rel_append ?_ ?_) ?_) ?_)
  · exact alike_references hrelate name _ (hcommented.field? "superclass")
  · exact alike_references hrelate name _ (hcommented.field? "interfaces")
  · exact alike_references hrelate name _ hextends
  · split
    · exact alike_parameterEntries hrelate name _ hcommented
    · exact .nil

theorem passesOver_reading : reading.PassesOver relate commentTypes fits where
  name? := ignoresComments_declaredName?
  heading name tree other hcommented := by
    rw [heading_reading, heading_reading, kindOf, kindOf, hcommented.type_eq]
    exact alike_headingEntries hrelate name _ hcommented
  member owner _ _ := alike_memberEntries hrelate owner
  goesByLabels := goesByLabels_reading
  comment tree hcomment := by
    have hmember : ∀ owner, reading.member owner tree = [] := fun _ => memberEntries_comment hcomment
    rw [isDeclaration_reading, isNested_reading, holdsMembers_reading]
    rcases type_of_isComment hcomment with htype | htype <;> rw [htype] <;>
      exact ⟨rfl, rfl, rfl, hmember⟩

end Parameters

end Java

/-! ## All languages -/

/-- **Comments are invisible**, wherever they are put, except for one that comes before the type of a
Java parameter for a variable number of arguments and hides the names in it.  Wherever comments are put
in Java, the nodes are the same and at most edges are missing. -/
theorem Extractor.passes_over_comments {root other : Tree} (file : String) :
    ((∀ tree, root.Contains tree → TypeScript.HasSegment tree) →
        Commented TypeScript.commentTypes Anywhere root other →
        typeScript.extract other file = typeScript.extract root file) ∧
      (Commented Java.commentTypes Java.KeepsNames root other →
        java.extract other file = java.extract root file) ∧
      (root.HasRows → Commented Java.commentTypes Anywhere root other →
        java.ReadsNoMore root other file) ∧
      (Commented Swift.commentTypes Anywhere root other →
        swift.extract other file = swift.extract root file) ∧
      (Commented Go.commentTypes Anywhere root other →
        go.extract other file = go.extract root file) := by
  have hjava : java.visit? = some Java.reading.visit := rfl
  refine ⟨fun hsegments hcommented => ?_, fun hcommented => ?_, fun hrows hcommented => ?_,
    fun hcommented => ?_, fun hcommented => ?_⟩
  · exact extract_of_passesOver rfl TypeScript.passesOver_visit (hcommented.of_contains hsegments) file
  · have hreading := Java.passesOver_reading Java.relatesParameters_eq
    exact extract_of_passesOver hjava hreading.visit hcommented file
  · have hreading := Java.passesOver_reading Java.relatesParameters_sublist
    exact readsNoMore_of_passesOver hjava Java.isWithin_visit hreading.visit hrows hcommented file
  · have hextractor : swift.visit? = some Swift.reading.visit := rfl
    exact extract_of_passesOver hextractor Swift.passesOver_reading.visit hcommented file
  · exact extract_of_passesOver rfl Go.passesOver_visit hcommented file

def itemNode : Tree := .node { type := "type_identifier", raw := .plain "Item" } []

/-- What comes before the type of the items. -/
def itemModifiers : Tree :=
  .node { type := "modifiers" } [.node { type := "final", named := false, raw := .plain "final" } []]

/-- What comes after the type of the items. -/
def itemNames : List Tree :=
  [.node { type := "...", named := false, raw := .plain "..." } [],
    .node { type := "variable_declarator" }
      [.node { type := "identifier", fields := ["name"], raw := .plain "items" } []]]

/-- A method for any number of items, with some trees for their parameter. -/
def itemsMethod (parameter : List Tree) : Tree :=
  .node { type := "method_declaration" }
    [.node { type := "void_type", fields := ["type"], raw := .plain "void" } [],
      .node { type := "identifier", fields := ["name"], raw := .plain "put" } [],
      .node { type := "formal_parameters", fields := ["parameters"] }
        [.node { type := "spread_parameter" } parameter],
      .node { type := "block", fields := ["body"], raw := .plain "{}" } []]

/-- A class with a method for any number of items, where comments stand before and after their type. -/
def itemsClass (before after : List Tree) : Tree :=
  .node { type := "class_declaration" }
    [.node { type := "identifier", fields := ["name"], raw := .plain "Box" } [],
      .node { type := "class_body", fields := ["body"] }
        [itemsMethod (itemModifiers :: (before ++ itemNode :: (after ++ itemNames)))]]

def commentNode (type : String) : Tree := .node { type } []

/-- Comments in the parameter are comments in the class. -/
theorem commented_itemsClass {before after : List Tree}
    (hsame : ∀ label trees, fits label trees trees)
    (hfits : ∀ label trees others, label.type ≠ "spread_parameter" → fits label trees others)
    (hparameter : Commented types fits
      (.node { type := "spread_parameter" } (itemModifiers :: itemNode :: itemNames))
      (.node { type := "spread_parameter" }
        (itemModifiers :: (before ++ itemNode :: (after ++ itemNames))))) :
    Commented types fits (itemsClass [] []) (itemsClass before after) := by
  have hrefl : ∀ trees, Interspersed types fits trees trees := .refl hsame
  have hparameters : Interspersed types fits
      [.node { type := "spread_parameter" } (itemModifiers :: itemNode :: itemNames)]
      [.node { type := "spread_parameter" }
        (itemModifiers :: (before ++ itemNode :: (after ++ itemNames)))] := by
    cases hparameter with
    | node hfits hchildren => exact .node hfits hchildren .nil
  refine .node (hfits _ _ _ (by decide)) (.node (hsame _ _) .nil
    (.node (hfits _ _ _ (by decide)) ?_ .nil))
  refine .node (hfits _ _ _ (by decide)) (.node (hsame _ _) .nil (.node (hsame _ _) .nil ?_)) .nil
  exact .node (hfits _ _ _ (by decide)) hparameters (hrefl _)

/-- A comment after the type of the items. -/
theorem commented_itemsClass_after {type : String} (htype : type ∈ types)
    (hsame : ∀ label trees, fits label trees trees)
    (hfits : ∀ label trees others, label.type ≠ "spread_parameter" → fits label trees others)
    (hparameter : fits { type := "spread_parameter" } (itemModifiers :: itemNode :: itemNames)
      (itemModifiers :: itemNode :: commentNode type :: itemNames)) :
    Commented types fits (itemsClass [] []) (itemsClass [] [commentNode type]) := by
  have hcomment : (commentNode type).IsComment types := ⟨htype, rfl, rfl, rfl⟩
  have hrefl : ∀ trees, Interspersed types fits trees trees := .refl hsame
  refine commented_itemsClass hsame hfits (.node hparameter ?_)
  exact .node (hsame _ _) (hrefl _) (.node (hsame _ _) .nil (.comment hcomment (hrefl itemNames)))

/-- A comment before the type of the items. -/
theorem Java.commented_itemsClass_before :
    Commented commentTypes Anywhere (itemsClass [] []) (itemsClass [commentNode "block_comment"] []) := by
  have hcomment : (commentNode "block_comment").IsComment commentTypes := ⟨by decide, rfl, rfl, rfl⟩
  have hrefl : ∀ trees, Interspersed commentTypes Anywhere trees trees := .refl fun _ _ => trivial
  refine commented_itemsClass (fun _ _ => trivial) (fun _ _ _ _ => trivial) (.node trivial ?_)
  exact .node trivial (hrefl _) (.comment hcomment (hrefl (itemNode :: itemNames)))

theorem Java.keepsNames_same (label : Label) (trees : List Tree) : KeepsNames label trees trees := by
  intro _ found comment hfound hcomment hisComment
  obtain rfl : found = comment := Option.some.inj (hfound.symm.trans hcomment)
  have hrule : typeRule.PassesOver commentTypes Anywhere := passesOver_typeRule
  exact hrule.namesIn_comment hisComment

theorem Java.keepsNames_itemNode (type : String) :
    KeepsNames { type := "spread_parameter" } (itemModifiers :: itemNode :: itemNames)
      (itemModifiers :: itemNode :: commentNode type :: itemNames) := by
  intro _ found comment _ hcomment hisComment
  obtain rfl : itemNode = comment := Option.some.inj hcomment
  exact absurd hisComment.type (by decide)

theorem hasRows_itemsClass : (itemsClass [] []).HasRows := by
  simp [itemsClass, itemsMethod, itemModifiers, itemNode, itemNames, Tree.hasRows_node]

theorem Extractor.passes_over_comments_itemsClass :
    let root := itemsClass [] []
    let other := itemsClass [] [commentNode "comment"]
    let javaOther := itemsClass [] [commentNode "block_comment"]
    let hidden := itemsClass [commentNode "block_comment"] []
    root.HasRows ∧ (∀ tree, root.Contains tree → TypeScript.HasSegment tree) ∧
      Commented TypeScript.commentTypes Anywhere root other ∧
      Commented Java.commentTypes Java.KeepsNames root javaOther ∧
      Commented Java.commentTypes Anywhere root hidden ∧
      Commented Swift.commentTypes Anywhere root other ∧
      Commented Go.commentTypes Anywhere root other ∧
      typeScript.extract other "" = typeScript.extract root "" ∧
      java.extract javaOther "" = java.extract root "" ∧
      java.ReadsNoMore root hidden "" ∧
      swift.extract other "" = swift.extract root "" ∧
      go.extract other "" = go.extract root "" := by
  intro root other javaOther hidden
  have hsegments : ∀ tree, root.Contains tree → TypeScript.HasSegment tree := by
    intro tree htree
    have hother : tree.type ≠ "nested_type_identifier" := by
      revert tree
      simp [root, itemsClass, itemsMethod, itemModifiers, itemNode, itemNames, Tree.contains_node_iff,
        Tree.type, Tree.label, or_imp, forall_and]
    exact fun htype => absurd htype hother
  have htypeScript : Commented TypeScript.commentTypes Anywhere root other :=
    commented_itemsClass_after (by decide) (fun _ _ => trivial) (fun _ _ _ _ => trivial) trivial
  have hjava : Commented Java.commentTypes Java.KeepsNames root javaOther :=
    commented_itemsClass_after (by decide) Java.keepsNames_same
      (fun _ _ _ hlabel htype => absurd htype hlabel) (Java.keepsNames_itemNode _)
  have hswift : Commented Swift.commentTypes Anywhere root other :=
    commented_itemsClass_after (by decide) (fun _ _ => trivial) (fun _ _ _ _ => trivial) trivial
  have hgo : Commented Go.commentTypes Anywhere root other :=
    commented_itemsClass_after (by decide) (fun _ _ => trivial) (fun _ _ _ _ => trivial) trivial
  have hhidden : Commented Java.commentTypes Anywhere root hidden := Java.commented_itemsClass_before
  exact ⟨hasRows_itemsClass, hsegments, htypeScript, hjava, hhidden, hswift, hgo,
    (passes_over_comments "").1 hsegments htypeScript, (passes_over_comments "").2.1 hjava,
    (passes_over_comments "").2.2.1 hasRows_itemsClass hhidden,
    (passes_over_comments "").2.2.2.1 hswift, (passes_over_comments "").2.2.2.2 hgo⟩

/-- A comment between the modifiers and the type hides the type. -/
theorem Extractor.not_passes_over_comments_itemsClass :
    let root := itemsClass [] []
    let other := itemsClass [commentNode "block_comment"] []
    root.HasRows ∧ Commented Java.commentTypes Anywhere root other ∧
      java.extract other "" ≠ java.extract root "" := by
  intro root other
  have hedges : (java.extract root "").toOption.map (·.edges.length) = some 1 := by decide +kernel
  have hnone : (java.extract other "").toOption.map (·.edges.length) = some 0 := by decide +kernel
  refine ⟨hasRows_itemsClass, Java.commented_itemsClass_before, fun heq => ?_⟩
  rw [heq, hedges] at hnone
  exact absurd hnone (by decide)

end TypeAtlas
