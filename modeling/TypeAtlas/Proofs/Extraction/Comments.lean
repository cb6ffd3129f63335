import TypeAtlas.Proofs.Extraction.Fragments
import TypeAtlas.Proofs.Extraction.Nesting
import TypeAtlas.Proofs.Syntax.Comments

/-!
# Reading past comments

What a language asks of a tree it asks in a few ways: it looks for the names in a type, it walks to its
declarations, and it may read declarations in others.  Each of these goes past comments if what the
language does at a single node does: `NameRule.PassesOver`, `Visit.PassesOver` and
`NestedReading.PassesOver`.  The recursion is dealt with here, once for all languages.
-/

namespace TypeAtlas

open Syntax Entry Tree

variable {types : List String} {fits : Fitting} {tree other : Tree} {trees others : List Tree}

/-! ## Where comments are put -/

/-- Comments that are put anywhere are put where they fit, if that is known of all that they are put
into. -/
theorem Syntax.Tree.Interspersed.of_contains {allowed : Tree → Prop}
    (hinterspersed : Interspersed types Anywhere trees others)
    (hallowed : ∀ tree ∈ trees, ∀ below, tree.Contains below → allowed below) :
    Interspersed types (fun label children _ => allowed (.node label children)) trees others := by
  induction hinterspersed with
  | nil => exact .nil
  | comment hcomment _ ih => exact .comment hcomment (ih hallowed)
  | node _ _ _ ihChildren ihRest =>
      obtain ⟨hfirst, hrest⟩ := List.forall_mem_cons.mp hallowed
      refine .node (hfirst _ .self) (ihChildren fun child hchild below hbelow => ?_) (ihRest hrest)
      exact hfirst below (.of_child hchild hbelow)

theorem Syntax.Tree.Commented.of_contains {allowed : Tree → Prop}
    (hcommented : Commented types Anywhere tree other)
    (hallowed : ∀ below, tree.Contains below → allowed below) :
    Commented types (fun label children _ => allowed (.node label children)) tree other := by
  cases hcommented with
  | node _ hchildren =>
      refine .node (hallowed _ .self) (hchildren.of_contains fun child hchild below hbelow => ?_)
      exact hallowed below (.of_child hchild hbelow)

/-! ## Names in types -/

/-- Nodes give the same names, and the same trees to look at but for comments. -/
structure Finding.Alike (types : List String) (fits : Fitting) (finding other : Finding) : Prop where
  names : other.names = finding.names
  next : Interspersed types fits finding.next other.next

/-- Names are found past comments, and none is found in a comment. -/
structure NameRule.PassesOver (rule : NameRule) (types : List String) (fits : Fitting) : Prop where
  find : ∀ tree other, Commented types fits tree other →
    (rule.find tree).Alike types fits (rule.find other)
  comment : ∀ tree : Tree, tree.IsComment types → rule.find tree = ⟨[], []⟩

namespace NameRule

variable {rule : NameRule}

theorem namesIn_eq_collect (rule : NameRule) (tree : Tree) : rule.namesIn tree = rule.collect tree := by
  rw [namesIn, gather_eq_flatMap_collect, List.flatMap_singleton]

theorem PassesOver.collect_comment (hrule : rule.PassesOver types fits)
    (hcomment : tree.IsComment types) : rule.collect tree = [] := by
  rw [collect_eq, hrule.comment tree hcomment]
  rfl

theorem PassesOver.collect (hrule : rule.PassesOver types fits) (tree other : Tree)
    (hcommented : Commented types fits tree other) : rule.collect other = rule.collect tree := by
  have halike := hrule.find tree other hcommented
  rw [collect_eq, collect_eq, halike.names]
  congr 1
  refine halike.next.flatMap (fun _ => hrule.collect_comment) fun child hchild another hanother => ?_
  exact hrule.collect child another hanother
termination_by tree.size
decreasing_by exact Nat.lt_of_le_of_lt (size_le_sizeAll hchild) (rule.next_lt tree)

/-- **The names in a type do not depend on comments.** -/
theorem PassesOver.namesIn (hrule : rule.PassesOver types fits) :
    IgnoresComments types fits rule.namesIn := by
  intro tree other hcommented
  rw [namesIn_eq_collect, namesIn_eq_collect, hrule.collect tree other hcommented]

theorem PassesOver.namesIn_comment (hrule : rule.PassesOver types fits)
    (hcomment : tree.IsComment types) : rule.namesIn tree = [] := by
  rw [namesIn_eq_collect, hrule.collect_comment hcomment]

theorem PassesOver.references (hrule : rule.PassesOver types fits) {found another : Option Tree}
    (hrel : Option.Rel (Commented types fits) found another) (owner : String) (kind : EdgeKind) :
    references rule owner kind another = references rule owner kind found := by
  cases hrel with
  | none => rfl
  | some hcommented =>
      simp only [TypeAtlas.references, Option.toList_some, List.map_cons, List.map_nil,
        hrule.namesIn _ _ hcommented]

theorem PassesOver.references_field (hrule : rule.PassesOver types fits) (owner name : String)
    (kind : EdgeKind) :
    IgnoresComments types fits fun tree => TypeAtlas.references rule owner kind (tree.field? name) :=
  fun _ _ hcommented => hrule.references (hcommented.field? name) owner kind

theorem PassesOver.refers (hrule : rule.PassesOver types fits) (owner : String) (kind : EdgeKind) :
    IgnoresComments types fits fun tree => Entry.refers owner (rule.namesIn tree) kind :=
  hrule.namesIn.map fun names => Entry.refers owner names kind

end NameRule

/-! ## Declarations -/

theorem ignoresComments_declaredName? : IgnoresComments types fits declaredName? := by
  intro tree other hcommented
  have hname := hcommented.field? "name"
  rw [declaredName?, declaredName?]
  generalize tree.field? "name" = found, other.field? "name" = another at hname ⊢
  cases hname with
  | none => rfl
  | some hchild => simp only [hchild.text_eq]

/-! ## Entries -/

/-- Entries that only differ in the names that are referred to, and these are related. -/
inductive Entry.AlikeButName (relate : List String → List String → Prop) : Entry → Entry → Prop where
  | declared (name : String) (kind : NodeKind) (row : Int) :
      AlikeButName relate (.declared name kind row) (.declared name kind row)
  | refers (owner : String) {names others : List String} (kind : EdgeKind)
      (hnames : relate names others) :
      AlikeButName relate (.refers owner names kind) (.refers owner others kind)

/-- Entries that are alike one by one. -/
abbrev Entry.AlikeButNames (relate : List String → List String → Prop) :
    List Entry → List Entry → Prop := List.Forall₂ (Entry.AlikeButName relate)

section AlikeButNames

variable {relate : List String → List String → Prop} {entries more : List Entry}

theorem Entry.alikeButNames_refl (hrelate : ∀ names, relate names names) (entries : List Entry) :
    AlikeButNames relate entries entries := by
  induction entries with
  | nil => exact .nil
  | cons entry _ ih =>
      refine .cons ?_ ih
      cases entry with
      | declared name kind row => exact .declared name kind row
      | refers owner names kind => exact .refers owner kind (hrelate names)

theorem Syntax.Tree.IgnoresComments.alikeButNames {read : Tree → List Entry}
    (hread : IgnoresComments types fits read) (tree other : Tree)
    (hcommented : Commented types fits tree other) : AlikeButNames Eq (read tree) (read other) := by
  rw [hread tree other hcommented]
  exact alikeButNames_refl (fun _ => rfl) _

theorem Entry.eq_of_alikeButNames (halike : AlikeButNames Eq entries more) : more = entries := by
  induction halike with
  | nil => rfl
  | cons hentry _ ih =>
      rw [ih]
      cases hentry with
      | declared => rfl
      | refers owner kind hnames => rw [hnames]

theorem Entry.isValid_of_alikeButNames (halike : AlikeButNames relate entries more)
    (hentries : ∀ entry ∈ entries, entry.IsValid) : ∀ entry ∈ more, entry.IsValid := by
  induction halike with
  | nil => exact nofun
  | cons hentry _ ih =>
      obtain ⟨hfirst, hrest⟩ := List.forall_mem_cons.mp hentries
      refine List.forall_mem_cons.mpr ⟨?_, ih hrest⟩
      cases hentry with
      | declared => exact hfirst
      | refers => exact hfirst

/-- The nodes do not depend on the names that are referred to. -/
theorem Fragment.nodes_of_alikeButNames {file : String} {builtins : List String}
    (halike : AlikeButNames relate entries more) :
    (ofEntries file builtins more).nodes = (ofEntries file builtins entries).nodes := by
  rw [ofEntries, ofEntries]
  induction halike with
  | nil => rfl
  | cons hentry _ ih =>
      dsimp only at ih ⊢
      rw [List.filterMap_cons, List.filterMap_cons, ih]
      cases hentry <;> rfl

/-- With fewer names there are fewer edges. -/
theorem Fragment.edges_of_alikeButNames {file : String} {builtins : List String}
    (halike : AlikeButNames (fun names others => others.Sublist names) entries more) :
    (ofEntries file builtins more).edges.Sublist (ofEntries file builtins entries).edges := by
  rw [ofEntries, ofEntries]
  induction halike with
  | nil => exact .slnil
  | cons hentry _ ih =>
      dsimp only at ih ⊢
      -- Each name gives its edge or none on its own, so that names left out only leave edges out.
      rw [List.flatMap_cons, List.flatMap_cons]
      refine List.Sublist.append ?_ ih
      cases hentry with
      | declared => exact .slnil
      | refers owner kind hnames => exact hnames.filterMap _

end AlikeButNames

/-! ## The walk -/

namespace Visit

variable {visit : Visit} {relate : List String → List String → Prop}

/-- A language reads alike whatever comments there are, and reads no comment. -/
structure PassesOver (visit : Visit) (relate : List String → List String → Prop)
    (types : List String) (fits : Fitting) : Prop where
  alike : ∀ tree other, Commented types fits tree other →
    Option.Rel (AlikeButNames relate) (visit tree) (visit other)
  comment : ∀ tree : Tree, tree.IsComment types → visit tree = none

theorem passesOver_of_ignores (hvisit : IgnoresComments types fits visit)
    (hcomment : ∀ tree : Tree, tree.IsComment types → visit tree = none) :
    visit.PassesOver Eq types fits where
  alike tree other hcommented := by
    rw [hvisit tree other hcommented]
    cases visit tree with
    | none => exact .none
    | some own => exact .some (alikeButNames_refl (fun _ => rfl) own)
  comment := hcomment

theorem PassesOver.entriesOf_comment (hvisit : visit.PassesOver relate types fits)
    (hcomment : tree.IsComment types) : visit.entriesOf tree = [] := by
  rw [visit.entriesOf_eq, hvisit.comment tree hcomment, hcomment.children]
  rfl

/-- What is read of a node, from what is read of its children. -/
theorem PassesOver.entriesOf_of_entriesBelow (hvisit : visit.PassesOver relate types fits)
    (hcommented : Commented types fits tree other)
    (hbelow : AlikeButNames relate (visit.entriesBelow tree.children)
      (visit.entriesBelow other.children)) :
    AlikeButNames relate (visit.entriesOf tree) (visit.entriesOf other) := by
  have halike := hvisit.alike tree other hcommented
  rw [visit.entriesOf_eq, visit.entriesOf_eq]
  generalize visit tree = own, visit other = another at halike ⊢
  cases halike with
  | none => exact hbelow
  | some hown => exact hown

theorem PassesOver.entriesBelow (hvisit : visit.PassesOver relate types fits)
    (hinterspersed : Interspersed types fits trees others) :
    AlikeButNames relate (visit.entriesBelow trees) (visit.entriesBelow others) := by
  induction hinterspersed with
  | nil => exact .nil
  | comment hcomment _ ih =>
      rw [Visit.entriesBelow, hvisit.entriesOf_comment hcomment]
      exact ih
  | node hfits hchildren _ ihChildren ihRest =>
      rw [Visit.entriesBelow, Visit.entriesBelow]
      exact List.rel_append
        (hvisit.entriesOf_of_entriesBelow (.node hfits hchildren) ihChildren) ihRest

/-- **Files are read past comments.** -/
theorem PassesOver.entriesOf (hvisit : visit.PassesOver relate types fits)
    (hcommented : Commented types fits tree other) :
    AlikeButNames relate (visit.entriesOf tree) (visit.entriesOf other) :=
  hvisit.entriesOf_of_entriesBelow hcommented (hvisit.entriesBelow hcommented.children)

end Visit

/-! ## Nested declarations -/

/-- Comments make hardly a difference to what is read of a declaration, apart from the recursion. -/
structure NestedReading.PassesOver (reading : NestedReading)
    (relate : List String → List String → Prop) (types : List String) (fits : Fitting) : Prop where
  name? : IgnoresComments types fits reading.rule.name?
  heading : ∀ name tree other, Commented types fits tree other →
    AlikeButNames relate (reading.heading name tree) (reading.heading name other)
  member : ∀ owner tree other, Commented types fits tree other →
    AlikeButNames relate (reading.member owner tree) (reading.member owner other)
  goesByLabels : reading.GoesByLabels
  comment : ∀ tree : Tree, tree.IsComment types → reading.rule.isDeclaration tree = false ∧
    reading.rule.isNested tree = false ∧ reading.rule.holdsMembers tree = false ∧
      ∀ owner, reading.member owner tree = []

namespace NestedReading.PassesOver

variable {reading : NestedReading} {relate : List String → List String → Prop}
  (hreading : reading.PassesOver relate types fits)

include hreading

mutual

theorem declaration (tree other : Tree) (hcommented : Commented types fits tree other) :
    AlikeButNames relate (reading.declaration tree) (reading.declaration other) := by
  rw [reading.declaration_eq, reading.declaration_eq, hreading.name? tree other hcommented]
  cases reading.rule.name? tree with
  | none => exact .nil
  | some name =>
      rw [Option.toList_some, List.flatMap_singleton, List.flatMap_singleton]
      refine List.rel_append (hreading.heading name tree other hcommented) ?_
      have hbody := hcommented.field? "body"
      have hmem : ∀ body, tree.field? "body" = some body → body ∈ tree.children :=
        fun _ => List.mem_of_find?_eq_some
      -- The bodies are children, which the recursion goes down to; only their relation matters otherwise.
      generalize tree.field? "body" = found, other.field? "body" = another at hbody hmem ⊢
      cases hbody with
      | none => exact .nil
      | @some body commented hbelow =>
          have hsize := size_lt_of_mem (hmem body rfl)
          rw [Option.toList_some, Option.toList_some, List.flatMap_singleton, List.flatMap_singleton]
          exact members name body commented hbelow
termination_by tree.size

theorem members (owner : String) (tree other : Tree) (hcommented : Commented types fits tree other) :
    AlikeButNames relate (reading.members owner tree) (reading.members owner other) := by
  rw [reading.members_eq, reading.members_eq]
  refine hcommented.namedChildren.flatMap_rel (concatenates_forall₂ _) (fun comment hcomment => ?_)
    fun child hmem another hbelow => ?_
  · obtain ⟨-, hnested, hholds, hmember⟩ := hreading.comment comment hcomment
    rw [hnested, hholds, hmember]
    rfl
  · have hsize := size_lt_of_mem (List.mem_filter.mp hmem).1
    rw [hreading.goesByLabels.isNested child another hbelow.label_eq,
      hreading.goesByLabels.holdsMembers child another hbelow.label_eq]
    split
    · exact declaration child another hbelow
    split
    · exact members owner child another hbelow
    · exact hreading.member owner child another hbelow
termination_by tree.size

end

/-- **Declarations are read past comments**, with all that is nested in them. -/
theorem visit : reading.visit.PassesOver relate types fits where
  alike tree other hcommented := by
    rw [reading.visit_eq, reading.visit_eq,
      hreading.goesByLabels.isDeclaration tree other hcommented.label_eq]
    split
    · exact .some (hreading.declaration tree other hcommented)
    · exact .none
  comment tree hcomment := by
    obtain ⟨hdeclaration, -, -⟩ := hreading.comment tree hcomment
    rw [reading.visit_eq, hdeclaration, if_neg Bool.false_ne_true]

end NestedReading.PassesOver

/-! ## Fragments -/

namespace Extractor

variable {extractor : Extractor} {visit : Visit}

theorem extract_of_passesOver (hextractor : extractor.visit? = some visit)
    (hvisit : visit.PassesOver Eq types fits) (hcommented : Commented types fits tree other)
    (file : String) : extractor.extract other file = extractor.extract tree file := by
  rw [extract_eq hextractor, extract_eq hextractor,
    eq_of_alikeButNames (hvisit.entriesOf hcommented)]

/-- A tree has a fragment, and another one has the same nodes and perhaps fewer edges. -/
def ReadsNoMore (extractor : Extractor) (tree other : Tree) (file : String) : Prop :=
  ∃ whole less, extractor.extract tree file = .ok whole ∧ extractor.extract other file = .ok less ∧
    less.nodes = whole.nodes ∧ less.edges.Sublist whole.edges

theorem readsNoMore_of_passesOver {declares : Declares} (hextractor : extractor.visit? = some visit)
    (hwithin : visit.IsWithin declares)
    (hvisit : visit.PassesOver (fun names others => others.Sublist names) types fits)
    (hrows : tree.HasRows) (hcommented : Commented types fits tree other) (file : String) :
    extractor.ReadsNoMore tree other file := by
  have halike := hvisit.entriesOf hcommented
  have hvalid := isValid_of_isWithin hwithin hrows
  exact ⟨_, _, extract_of_valid hextractor hvalid file,
    extract_of_valid hextractor (isValid_of_alikeButNames halike hvalid) file,
    Fragment.nodes_of_alikeButNames halike, Fragment.edges_of_alikeButNames halike⟩

end Extractor
end TypeAtlas
