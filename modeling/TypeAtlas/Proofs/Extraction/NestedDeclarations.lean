import TypeAtlas.Proofs.Extraction.Fragments
import TypeAtlas.Proofs.Extraction.Nesting

/-!
# Nested declarations stand for themselves

What a declaration contributes does not depend on where it is nested.  A declaration somewhere among the
members of others may be taken out of them and read on its own: the nodes and edges are the same
(`Extractor.reads_apart`).

`DeclarationRule.TakesOut` says what it means to take a declaration out, at any depth.  All the
declarations around it keep their names and headings (`NestedReading.LooksPastBodies`), so its entries
stand in one piece among theirs (`NestedReading.inserts_of_takesOut`).
-/

namespace TypeAtlas

open Syntax Entry

/-! ## Trees that differ below a child -/

namespace Syntax.Tree

/-- A tree that its parent holds as a body, and as nothing else.  It is of none of the types that a
heading is made of. -/
structure IsBody (headingTypes : List String) (tree : Tree) : Prop where
  isUnder : tree.isUnder "body" = true
  fields : ∀ name ∈ tree.label.fields, name = "body"
  type : tree.type ∉ headingTypes

/-- Trees that are alike but for what is below a body. -/
inductive AlikeButBody (headingTypes : List String) : Tree → Tree → Prop where
  | replace {label : Label} {before after : List Tree} {body rest : Tree}
      (hbody : body.IsBody headingTypes) (hlabel : rest.label = body.label) :
      AlikeButBody headingTypes (.node label (before ++ body :: after))
        (.node label (before ++ rest :: after))

theorem isUnder_congr {tree other : Tree} (hlabel : other.label = tree.label) (name : String) :
    other.isUnder name = tree.isUnder name := by
  rw [isUnder, isUnder, hlabel]

theorem type_congr {tree other : Tree} (hlabel : other.label = tree.label) :
    other.type = tree.type := by
  rw [type, type, hlabel]

theorem isNamed_congr {tree other : Tree} (hlabel : other.label = tree.label) :
    other.isNamed = tree.isNamed := by
  rw [isNamed, isNamed, hlabel]

theorem field?_node_append {label : Label} {before after : List Tree} {child : Tree} {name : String}
    (hbefore : ∀ other ∈ before, other.isUnder name = false) (hchild : child.isUnder name = true) :
    (node label (before ++ child :: after)).field? name = some child := by
  have hnone : before.find? (isUnder name) = none := by
    rw [List.find?_eq_none]
    intro other hother
    rw [hbefore other hother]
    exact Bool.false_ne_true
  rw [field?, children_node, List.find?_append, hnone, Option.none_or, List.find?_cons, hchild]

variable {headingTypes : List String} {tree other : Tree}

theorem find?_replace {before after : List Tree} {body rest : Tree} {suits : Tree → Bool}
    (hbody : suits body = false) (hrest : suits rest = false) :
    (before ++ rest :: after).find? suits = (before ++ body :: after).find? suits := by
  simp only [List.find?_append, List.find?_cons, hbody, hrest]

theorem filter_replace {before after : List Tree} {body rest : Tree} {suits : Tree → Bool}
    (hbody : suits body = false) (hrest : suits rest = false) :
    (before ++ rest :: after).filter suits = (before ++ body :: after).filter suits := by
  simp [List.filter_append, hbody, hrest]

theorem IsBody.isUnder_eq_false {body : Tree} (hbody : body.IsBody headingTypes) {name : String}
    (hname : name ≠ "body") : body.isUnder name = false := by
  rw [Tree.isUnder, Bool.eq_false_iff, ne_eq, List.contains_iff_mem]
  exact fun hmem => hname (hbody.fields name hmem)

namespace AlikeButBody

theorem label_eq (halike : AlikeButBody headingTypes tree other) : other.label = tree.label := by
  cases halike
  rfl

theorem type_eq (halike : AlikeButBody headingTypes tree other) : other.type = tree.type :=
  type_congr halike.label_eq

theorem field?_eq (halike : AlikeButBody headingTypes tree other) {name : String}
    (hname : name ≠ "body") : other.field? name = tree.field? name := by
  cases halike with
  | replace hbody hlabel =>
      have hunder := hbody.isUnder_eq_false hname
      exact find?_replace hunder ((isUnder_congr hlabel name).trans hunder)

theorem findChild?_eq (halike : AlikeButBody headingTypes tree other) {types : List String}
    (htypes : types ⊆ headingTypes) : other.findChild? types = tree.findChild? types := by
  cases halike with
  | replace hbody hlabel =>
      apply find?_replace
      · simpa using fun hmem => hbody.type (htypes hmem)
      · rw [type_congr hlabel]
        simpa using fun hmem => hbody.type (htypes hmem)

theorem childrenOf_eq (halike : AlikeButBody headingTypes tree other) {types : List String}
    (htypes : types ⊆ headingTypes) : other.childrenOf types = tree.childrenOf types := by
  cases halike with
  | replace hbody hlabel =>
      apply filter_replace
      · simpa using fun hmem => hbody.type (htypes hmem)
      · rw [type_congr hlabel]
        simpa using fun hmem => hbody.type (htypes hmem)

theorem hasToken_eq (halike : AlikeButBody headingTypes tree other) (token : String) :
    other.hasToken token = tree.hasToken token := by
  cases halike with
  | replace hbody hlabel =>
      simp only [hasToken, children_node, List.any_append, List.any_cons, isNamed, text, hlabel]

end AlikeButBody
end Syntax.Tree

/-! ## Taking a declaration out -/

/-- A declaration is taken out of a tree: of the members that a node holds, or of those in the body of a
declaration with a name, at any depth. -/
inductive DeclarationRule.TakesOut (rule : DeclarationRule) (headingTypes : List String)
    (nested : Tree) : Part → Tree → Tree → Prop where
  | member {label : Label} {before after : List Tree} (hnamed : nested.isNamed = true)
      (hnested : rule.isNested nested = true) :
      TakesOut rule headingTypes nested .members (.node label (before ++ nested :: after))
        (.node label (before ++ after))
  | inside {label : Label} {before after : List Tree} {tree rest : Tree}
      (hnamed : tree.isNamed = true) (hnested : rule.isNested tree = true)
      (htree : TakesOut rule headingTypes nested .taken tree rest) :
      TakesOut rule headingTypes nested .members (.node label (before ++ tree :: after))
        (.node label (before ++ rest :: after))
  | further {label : Label} {before after : List Tree} {holder rest : Tree}
      (hnamed : holder.isNamed = true) (hholds : rule.holdsMembers holder = true)
      (hholder : TakesOut rule headingTypes nested .members holder rest) :
      TakesOut rule headingTypes nested .members (.node label (before ++ holder :: after))
        (.node label (before ++ rest :: after))
  | body {label : Label} {before after : List Tree} {body rest : Tree}
      (hname : (rule.name? (.node label (before ++ body :: after))).isSome = true)
      (hfirst : ∀ child ∈ before, child.isUnder "body" = false)
      (hbody : body.IsBody headingTypes)
      (hmembers : TakesOut rule headingTypes nested .members body rest) :
      TakesOut rule headingTypes nested .taken (.node label (before ++ body :: after))
        (.node label (before ++ rest :: after))

/-- A declaration is nested in another one, and this is what the other one is without it. -/
structure DeclarationRule.Nests (rule : DeclarationRule) (headingTypes : List String)
    (outer nested rest : Tree) : Prop where
  isDeclaration : rule.isDeclaration outer = true
  takesOut : rule.TakesOut headingTypes nested .taken outer rest

theorem DeclarationRule.TakesOut.label_eq {rule : DeclarationRule} {headingTypes : List String}
    {nested tree rest : Tree} {part : Part}
    (htakes : rule.TakesOut headingTypes nested part tree rest) : rest.label = tree.label := by
  cases htakes <;> rfl

/-- What is taken out is a declaration. -/
theorem DeclarationRule.TakesOut.isNested {rule : DeclarationRule} {headingTypes : List String}
    {nested tree rest : Tree} {part : Part}
    (htakes : rule.TakesOut headingTypes nested part tree rest) : rule.isNested nested = true := by
  induction htakes with
  | member _ hnested => exact hnested
  | inside _ _ _ ih => exact ih
  | further _ _ _ ih => exact ih
  | body _ _ _ _ ih => exact ih

/-- What a declaration is called, and what its heading says, does not depend on what is below its body.
-/
structure NestedReading.LooksPastBodies (reading : NestedReading) (headingTypes : List String) :
    Prop where
  name? : ∀ tree other : Tree, tree.AlikeButBody headingTypes other →
    reading.rule.name? other = reading.rule.name? tree
  heading : ∀ name (tree other : Tree), tree.AlikeButBody headingTypes other →
    reading.heading name other = reading.heading name tree
  goesByLabels : reading.GoesByLabels
  isDeclaration : ∀ tree : Tree, reading.rule.isNested tree = true →
    reading.rule.isDeclaration tree = true

/-- Some entries stand in one piece among others. -/
def Entry.Inserts (own whole rest : List Entry) : Prop :=
  ∃ first last, whole = first ++ own ++ last ∧ rest = first ++ last

theorem Entry.Inserts.around {own whole rest : List Entry} (hinserts : Inserts own whole rest)
    (before after : List Entry) : Inserts own (before ++ whole ++ after) (before ++ rest ++ after) := by
  obtain ⟨first, last, rfl, rfl⟩ := hinserts
  exact ⟨before ++ first, last ++ after, by simp, by simp⟩

theorem Entry.Inserts.perm {own whole rest : List Entry} (hinserts : Inserts own whole rest) :
    whole.Perm (rest ++ own) := by
  obtain ⟨first, last, rfl, rfl⟩ := hinserts
  rw [List.append_assoc, List.append_assoc]
  exact (List.perm_append_comm).append_left first

namespace NestedReading

variable (reading : NestedReading)

/-- The entries of a tree that is a declaration, or holds members. -/
def entriesAs (part : Part) (owner : String) (tree : Tree) : List Entry :=
  match part with
  | .taken => reading.declaration tree
  | _ => reading.members owner tree

theorem entriesAs_taken (owner : String) (tree : Tree) :
    reading.entriesAs .taken owner tree = reading.declaration tree := rfl

theorem entriesAs_members (owner : String) (tree : Tree) :
    reading.entriesAs .members owner tree = reading.members owner tree := rfl

/-- A declaration gives its heading, then its members. -/
theorem declaration_of_body {tree body : Tree} {name : String}
    (hname : reading.rule.name? tree = some name) (hbody : tree.field? "body" = some body) :
    reading.declaration tree = reading.heading name tree ++ reading.members name body := by
  rw [reading.declaration_eq, hname, hbody]
  simp

/-- The entries of a child of a node that holds members. -/
def entriesOfChild (owner : String) (child : Tree) : List Entry :=
  if child.isNamed then
    if reading.rule.isNested child then reading.declaration child
    else if reading.rule.holdsMembers child then reading.members owner child
    else reading.member owner child
  else []

theorem members_eq_flatMap (owner : String) (tree : Tree) :
    reading.members owner tree = tree.children.flatMap (reading.entriesOfChild owner) := by
  rw [reading.members_eq, Tree.namedChildren]
  induction tree.children with
  | nil => rfl
  | cons child rest ih =>
      rw [List.filter_cons, List.flatMap_cons, ← ih, entriesOfChild]
      cases child.isNamed <;> rfl

theorem members_node_append (owner : String) (label : Label) (before after : List Tree)
    (child : Tree) :
    reading.members owner (.node label (before ++ child :: after)) =
      before.flatMap (reading.entriesOfChild owner) ++ reading.entriesOfChild owner child ++
        after.flatMap (reading.entriesOfChild owner) := by
  rw [members_eq_flatMap, Tree.children_node, List.flatMap_append, List.flatMap_cons,
    List.append_assoc]

variable {reading} {headingTypes : List String} {nested tree rest : Tree} {part : Part}

/-- **The entries of a nested declaration stand in one piece** among those of what it is nested in. -/
theorem inserts_of_takesOut (hreading : reading.LooksPastBodies headingTypes)
    (htakes : reading.rule.TakesOut headingTypes nested part tree rest) (owner : String) :
    Inserts (reading.declaration nested) (reading.entriesAs part owner tree)
      (reading.entriesAs part owner rest) := by
  induction htakes generalizing owner with
  | @member label before after hnamed hnested =>
      have hchild : reading.entriesOfChild owner nested = reading.declaration nested := by
        rw [entriesOfChild, if_pos hnamed, if_pos hnested]
      refine ⟨before.flatMap (reading.entriesOfChild owner),
        after.flatMap (reading.entriesOfChild owner), ?_, ?_⟩
      · rw [← hchild]
        exact reading.members_node_append owner label before after nested
      · rw [← List.flatMap_append]
        exact reading.members_eq_flatMap owner _
  | @inside label before after tree rest hnamed hnested htree ih =>
      -- What is left of a declaration has its label, so it still counts as one.
      have hrestNested := hreading.goesByLabels.isNested tree rest htree.label_eq
      have hchild : reading.entriesOfChild owner tree = reading.declaration tree := by
        rw [entriesOfChild, if_pos hnamed, if_pos hnested]
      have hrest : reading.entriesOfChild owner rest = reading.declaration rest := by
        rw [entriesOfChild, Tree.isNamed_congr htree.label_eq, if_pos hnamed, hrestNested,
          if_pos hnested]
      rw [entriesAs_members, entriesAs_members, members_node_append, members_node_append, hchild,
        hrest]
      exact (ih owner).around _ _
  | @further label before after holder rest hnamed hholds hholder ih =>
      have hrestNested := hreading.goesByLabels.isNested holder rest hholder.label_eq
      have hrestHolds := hreading.goesByLabels.holdsMembers holder rest hholder.label_eq
      have hnested := reading.rule.not_isNested holder hholds
      have hchild : reading.entriesOfChild owner holder = reading.members owner holder := by
        rw [entriesOfChild, if_pos hnamed, hnested, if_neg Bool.false_ne_true, if_pos hholds]
      have hrest : reading.entriesOfChild owner rest = reading.members owner rest := by
        rw [entriesOfChild, Tree.isNamed_congr hholder.label_eq, if_pos hnamed, hrestNested, hnested,
          if_neg Bool.false_ne_true, hrestHolds, if_pos hholds]
      rw [entriesAs_members, entriesAs_members, members_node_append, members_node_append, hchild,
        hrest]
      exact (ih owner).around _ _
  | @body label before after body rest hname hfirst hbody hmembers ih =>
      have halike : Tree.AlikeButBody headingTypes (.node label (before ++ body :: after))
          (.node label (before ++ rest :: after)) := .replace hbody hmembers.label_eq
      obtain ⟨name, hname⟩ := Option.isSome_iff_exists.mp hname
      have hfield : Tree.field? (.node label (before ++ body :: after)) "body" = some body :=
        Tree.field?_node_append hfirst hbody.isUnder
      have hrestField : Tree.field? (.node label (before ++ rest :: after)) "body" = some rest :=
        Tree.field?_node_append hfirst
          ((Tree.isUnder_congr hmembers.label_eq "body").trans hbody.isUnder)
      have hwhole := reading.declaration_of_body hname hfield
      have hrest := reading.declaration_of_body ((hreading.name? _ _ halike).trans hname) hrestField
      rw [hreading.heading name _ _ halike] at hrest
      rw [entriesAs_taken, entriesAs_taken, hwhole, hrest]
      have hbelow := (ih name).around
        (reading.heading name (.node label (before ++ body :: after))) []
      simpa [entriesAs_members] using hbelow

end NestedReading

/-! ## Java -/

namespace Java

/-- The types of the children that a heading is made of, as far as these are found by their types. -/
def headingTypes : List String := ["extends_interfaces"]

variable {tree other : Tree}

theorem headingEntries_congr (halike : Tree.AlikeButBody headingTypes tree other) (name : String)
    (kind : NodeKind) : headingEntries name kind other = headingEntries name kind tree := by
  have hsuperclass : other.field? "superclass" = tree.field? "superclass" :=
    halike.field?_eq (by decide)
  have hinterfaces : other.field? "interfaces" = tree.field? "interfaces" :=
    halike.field?_eq (by decide)
  have hparameters : other.field? "parameters" = tree.field? "parameters" :=
    halike.field?_eq (by decide)
  have hextends : other.findChild? ["extends_interfaces"] = tree.findChild? ["extends_interfaces"] :=
    halike.findChild?_eq (List.Subset.refl _)
  rw [headingEntries, headingEntries, halike.label_eq, halike.type_eq, hsuperclass, hinterfaces,
    hextends, parameterEntries, parameterEntries, hparameters]

theorem looksPastBodies_reading : reading.LooksPastBodies headingTypes where
  name? tree other halike := by
    have hname : other.field? "name" = tree.field? "name" := halike.field?_eq (by decide)
    have hdeclared : ∀ tree, reading.rule.name? tree = declaredName? tree := fun _ => rfl
    rw [hdeclared, hdeclared, declaredName?, declaredName?, hname]
  heading name tree other halike := by
    have hkind : kindOf other = kindOf tree := by rw [kindOf, kindOf, halike.type_eq]
    rw [heading_reading, heading_reading, hkind, headingEntries_congr halike]
  goesByLabels := goesByLabels_reading
  isDeclaration _ hnested := hnested

end Java

/-! ## Swift -/

namespace Swift

/-- The types of the children that a heading or a name is made of, as far as these are found by their
types. -/
def headingTypes : List String := inheritanceTypes ++ ["user_type", "type_identifier"]

variable {tree other : Tree}

theorem nameOf?_congr (halike : Tree.AlikeButBody headingTypes tree other) :
    nameOf? other = nameOf? tree := by
  have hname : other.field? "name" = tree.field? "name" := halike.field?_eq (by decide)
  have hfound : other.findChild? ["user_type", "type_identifier"] =
      tree.findChild? ["user_type", "type_identifier"] :=
    halike.findChild?_eq (List.subset_append_right _ _)
  rw [nameOf?, nameOf?, nameNode?, nameNode?, hname, hfound]

theorem kindOf?_congr (halike : Tree.AlikeButBody headingTypes tree other) :
    kindOf? other = kindOf? tree := by
  have hkeyword : other.field? "declaration_kind" = tree.field? "declaration_kind" :=
    halike.field?_eq (by decide)
  have htoken : other.hasToken = tree.hasToken := funext halike.hasToken_eq
  rw [kindOf?, kindOf?, halike.type_eq, keywordOf, keywordOf, hkeyword, htoken]

theorem looksPastBodies_reading : reading.LooksPastBodies headingTypes where
  name? _ _ halike := nameOf?_congr halike
  heading name tree other halike := by
    have hinherited : other.childrenOf inheritanceTypes = tree.childrenOf inheritanceTypes :=
      halike.childrenOf_eq (List.subset_append_left _ _)
    rw [heading_reading, heading_reading, headingEntries, headingEntries, kindOf?_congr halike,
      halike.label_eq, hinherited]
  goesByLabels := goesByLabels_reading
  isDeclaration tree hnested := by
    rw [isNested_reading] at hnested
    rw [isDeclaration_reading, hnested, Bool.true_or]

end Swift

/-! ## What is extracted -/

/-- The nodes and edges of a tree are, as multisets, those of two others. -/
def Extractor.Separates (extractor : Extractor) (outer rest nested : Tree) (file : String) : Prop :=
  ∃ whole others own, extractor.extract outer file = .ok whole ∧
    extractor.extract rest file = .ok others ∧ extractor.extract nested file = .ok own ∧
      whole.nodes.Perm (others.nodes ++ own.nodes) ∧ whole.edges.Perm (others.edges ++ own.edges)

/-- Nothing is added to the fragment of some entries by looking at them in another order. -/
theorem Fragment.ofEntries_perm {file : String} {builtins : List String} {entries rest own : List Entry}
    (hperm : entries.Perm (rest ++ own)) :
    (ofEntries file builtins entries).nodes.Perm
        ((ofEntries file builtins rest).nodes ++ (ofEntries file builtins own).nodes) ∧
      (ofEntries file builtins entries).edges.Perm
        ((ofEntries file builtins rest).edges ++ (ofEntries file builtins own).edges) := by
  have hnodes := hperm.filterMap (Entry.node? file)
  have hedges := hperm.flatMap_right (Entry.edges builtins)
  rw [List.filterMap_append] at hnodes
  rw [List.flatMap_append] at hedges
  exact ⟨hnodes, hedges⟩

namespace NestedReading

variable {reading : NestedReading} {headingTypes : List String} {outer nested rest : Tree}

/-- A declaration is read as a whole. -/
theorem entriesOf_of_isDeclaration {tree : Tree} (htree : reading.rule.isDeclaration tree = true) :
    reading.visit.entriesOf tree = reading.declaration tree := by
  have hvisit := reading.visit_eq tree
  rw [if_pos htree] at hvisit
  cases tree with
  | node label children => rw [Visit.entriesOf, hvisit]

/-- What is taken out of a declaration is a declaration, and what is left is one as well. -/
theorem isDeclaration_of_nests (hreading : reading.LooksPastBodies headingTypes)
    (hnests : reading.rule.Nests headingTypes outer nested rest) :
    reading.rule.isDeclaration rest = true ∧ reading.rule.isDeclaration nested = true := by
  constructor
  · have hrest := hreading.goesByLabels.isDeclaration outer rest hnests.takesOut.label_eq
    exact hrest.trans hnests.isDeclaration
  · exact hreading.isDeclaration nested hnests.takesOut.isNested

/-- The entries of a declaration are those of what is left of it, and those of what is nested in it. -/
theorem entriesOf_perm (hreading : reading.LooksPastBodies headingTypes)
    (hnests : reading.rule.Nests headingTypes outer nested rest) :
    (reading.visit.entriesOf outer).Perm
      (reading.visit.entriesOf rest ++ reading.visit.entriesOf nested) := by
  obtain ⟨hrest, hnested⟩ := isDeclaration_of_nests hreading hnests
  rw [entriesOf_of_isDeclaration hnests.isDeclaration, entriesOf_of_isDeclaration hrest,
    entriesOf_of_isDeclaration hnested]
  exact (inserts_of_takesOut hreading hnests.takesOut "").perm

theorem separates {extractor : Extractor} {declares : Declares}
    (hextractor : extractor.visit? = some reading.visit) (hwithin : reading.visit.IsWithin declares)
    (hreading : reading.LooksPastBodies headingTypes) (hrows : outer.HasRows)
    (hnests : reading.rule.Nests headingTypes outer nested rest) (file : String) :
    extractor.Separates outer rest nested file := by
  have hperm := entriesOf_perm hreading hnests
  have hwhole := Extractor.isValid_of_isWithin hwithin hrows
  have hrest : ∀ entry ∈ reading.visit.entriesOf rest, entry.IsValid := fun entry hentry =>
    hwhole entry (hperm.mem_iff.mpr (List.mem_append_left _ hentry))
  have hnested : ∀ entry ∈ reading.visit.entriesOf nested, entry.IsValid := fun entry hentry =>
    hwhole entry (hperm.mem_iff.mpr (List.mem_append_right _ hentry))
  obtain ⟨hnodes, hedges⟩ := Fragment.ofEntries_perm hperm
  exact ⟨_, _, _, Extractor.extract_of_valid hextractor hwhole file,
    Extractor.extract_of_valid hextractor hrest file,
    Extractor.extract_of_valid hextractor hnested file, hnodes, hedges⟩

end NestedReading

/-- **A nested declaration stands for itself.**  What is read of a declaration is what is read of it
without a declaration that is nested in it, at whatever depth, and what is read of that one alone. -/
theorem Extractor.reads_apart {outer nested rest : Tree} (hrows : outer.HasRows) (file : String) :
    (Java.declarationRule.Nests Java.headingTypes outer nested rest →
        java.Separates outer rest nested file) ∧
      (Swift.declarationRule.Nests Swift.headingTypes outer nested rest →
        swift.Separates outer rest nested file) := by
  have hjava : java.visit? = some Java.reading.visit := rfl
  have hswift : swift.visit? = some Swift.reading.visit := rfl
  exact ⟨fun hnests => NestedReading.separates hjava Java.isWithin_visit
      Java.looksPastBodies_reading hrows hnests file,
    fun hnests => NestedReading.separates hswift Swift.isWithin_visit
      Swift.looksPastBodies_reading hrows hnests file⟩

/-- The body of a class, as it is in Java and in Swift. -/
def bodyWith (members : List Tree) : Tree :=
  .node { type := "class_body", fields := ["body"] } members

/-- A class with some members. -/
def classWith (name : String) (members : List Tree) : Tree :=
  .node { type := "class_declaration" }
    [.node { type := "type_identifier", fields := ["name"], raw := .plain name } [],
      bodyWith members]

/-- Taking something out of the body of a class is taking it out of the class. -/
theorem DeclarationRule.TakesOut.classWith {rule : DeclarationRule} {headingTypes : List String}
    {nested : Tree} {name : String} {members rest : List Tree}
    (hname : (rule.name? (classWith name members)).isSome = true)
    (htypes : "class_body" ∉ headingTypes)
    (hmembers : rule.TakesOut headingTypes nested .members (bodyWith members) (bodyWith rest)) :
    rule.TakesOut headingTypes nested .taken (classWith name members) (classWith name rest) := by
  refine @body _ _ _ _ [_] [] _ _ hname ?_ ⟨rfl, ?_, htypes⟩ hmembers
  · intro child hchild
    rw [List.mem_singleton.mp hchild]
    rfl
  · intro field hfield
    exact List.mem_singleton.mp hfield

theorem Extractor.reads_apart_classWith :
    let inner := classWith "Inner" []
    let outer := classWith "Outer" [classWith "Middle" [inner]]
    let rest := classWith "Outer" [classWith "Middle" []]
    outer.HasRows ∧ Java.declarationRule.Nests Java.headingTypes outer inner rest ∧
      Swift.declarationRule.Nests Swift.headingTypes outer inner rest ∧
      java.Separates outer rest inner "" ∧ swift.Separates outer rest inner "" := by
  intro inner outer rest
  have hrows : outer.HasRows := by simp [outer, inner, classWith, bodyWith, Tree.hasRows_node]
  have htakes : ∀ {rule : DeclarationRule} {headingTypes : List String},
      (rule.name? outer).isSome = true → (rule.name? (classWith "Middle" [inner])).isSome = true →
      rule.isNested inner = true → rule.isNested (classWith "Middle" [inner]) = true →
      "class_body" ∉ headingTypes →
      rule.TakesOut headingTypes inner .taken outer rest := by
    intro rule headingTypes houter hmiddle hinner hnested htypes
    have hleft : rule.TakesOut headingTypes inner .members (bodyWith ([] ++ [inner]))
        (bodyWith ([] ++ [])) := .member rfl hinner
    exact .classWith houter htypes
      (@DeclarationRule.TakesOut.inside _ _ _ _ [] [] _ _ rfl hnested
        (.classWith hmiddle htypes hleft))
  have hjava : Java.declarationRule.Nests Java.headingTypes outer inner rest :=
    ⟨rfl, htakes (by decide +kernel) (by decide +kernel) rfl rfl (by decide)⟩
  have hswift : Swift.declarationRule.Nests Swift.headingTypes outer inner rest :=
    ⟨rfl, htakes (by decide +kernel) (by decide +kernel) rfl rfl (by decide)⟩
  have happly := @reads_apart outer inner rest hrows ""
  exact ⟨hrows, hjava, hswift, happly.1 hjava, happly.2 hswift⟩

end TypeAtlas
