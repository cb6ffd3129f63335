import TypeAtlas.Language
import TypeAtlas.Proofs.Extraction.Languages
import TypeAtlas.Proofs.Results

/-!
# Files are read in source order

An extractor walks through a tree with a list of trees that are still to be visited, and puts what it
finds into one builder.  `Extractor.recursively` needs neither: a node that is handled contributes a
fragment of its own, and any other node the fragments of its children, from left to right.

Two things make this the same.  The walk visits the trees one after the other, which
`Visit.entries_eq_entriesBelow` says of the entries; and a builder takes entries in the same way
whatever it holds (`Builder.addAll_onto`), so the fragment of entries in a row is made of their
fragments (`Builder.fragmentOf_append`).

`Extractor.reads_in_order` is the main statement.  With the recursion come two laws of error recovery:
a node that is not handled may stand for its children, and a run of children may be wrapped into such
a node (`Extractor.Wraps`); both leave the fragment as it is.
-/

namespace TypeAtlas

open Syntax

/-! ## Fragments in a row -/

/-- Fragments one after the other. -/
def Fragment.joined (fragments : List Fragment) : Fragment :=
  ⟨fragments.flatMap nodes, fragments.flatMap edges⟩

theorem Fragment.joined_cons (fragment : Fragment) (fragments : List Fragment) :
    joined (fragment :: fragments) = joined [fragment, joined fragments] := by
  simp [joined]

namespace Builder

variable {builder base extended : Builder}

/-- A builder that goes on from another one: what it has comes after what the other one has. -/
def onto (base builder : Builder) : Builder :=
  { builder with nodes := builder.nodes ++ base.nodes, edges := builder.edges ++ base.edges }

/-- A builder for the same file that has nothing yet. -/
def cleared (builder : Builder) : Builder := { builder with nodes := [], edges := [] }

@[simp] theorem onto_cleared (builder : Builder) : builder.onto builder.cleared = builder := rfl

@[simp] theorem cleared_cleared (builder : Builder) : builder.cleared.cleared = builder.cleared :=
  rfl

theorem addNode_onto (base builder : Builder) (name kind : String) (row : Int) :
    (base.onto builder).addNode name kind row = (builder.addNode name kind row).map base.onto := by
  rw [addNode, addNode]
  simp only [onto]
  generalize Node.check _ = checked
  cases checked <;> rfl

theorem addEdges_onto (base builder : Builder) (owner : String) (names : List String)
    (kind : String) :
    (base.onto builder).addEdges owner names kind =
      (base.onto (builder.addEdges owner names kind).1,
        (builder.addEdges owner names kind).2) := by
  induction names generalizing builder with
  | nil => rfl
  | cons name names ih =>
      have hadmits : (base.onto builder).admits name = builder.admits name := rfl
      rw [addEdges, addEdges, hadmits]
      cases builder.admits name with
      | false => exact ih builder
      | true =>
          cases edge owner name kind with
          | error report => rfl
          | ok edge => exact ih { builder with edges := edge :: builder.edges }

theorem add_onto (base builder : Builder) (entry : Entry) :
    (base.onto builder).add entry = (builder.add entry).map base.onto := by
  cases entry with
  | declared name kind row => exact addNode_onto base builder name kind.name row
  | refers owner names kind =>
      rw [add, add, addEdges_onto]
      rcases builder.addEdges owner names kind.name with ⟨extended, outcome⟩
      cases outcome <;> rfl

/-- **A builder takes entries in the same way** whatever it holds. -/
theorem addAll_onto (base builder : Builder) (entries : List Entry) :
    (base.onto builder).addAll entries = (builder.addAll entries).map base.onto := by
  induction entries generalizing builder with
  | nil => rfl
  | cons entry entries ih =>
      rw [addAll, addAll, add_onto]
      cases builder.add entry with
      | error report => rfl
      | ok extended => exact ih extended

theorem addAll_append (builder : Builder) (entries more : List Entry) :
    builder.addAll (entries ++ more) = (builder.addAll entries).bind (·.addAll more) := by
  induction entries generalizing builder with
  | nil => rfl
  | cons entry entries ih =>
      rw [List.cons_append, addAll, addAll]
      cases builder.add entry with
      | error report => rfl
      | ok extended => exact ih extended

theorem cleared_addEdges (builder : Builder) (owner : String) (names : List String)
    (kind : String) : (builder.addEdges owner names kind).1.cleared = builder.cleared := by
  induction names generalizing builder with
  | nil => rfl
  | cons name names ih =>
      rw [addEdges]
      cases builder.admits name with
      | false => exact ih builder
      | true =>
          cases edge owner name kind with
          | error report => rfl
          | ok edge => exact ih { builder with edges := edge :: builder.edges }

theorem cleared_of_add {entry : Entry} (hadd : builder.add entry = .ok extended) :
    extended.cleared = builder.cleared := by
  cases entry with
  | declared name kind row =>
      rw [add, addNode] at hadd
      obtain ⟨node, -, rfl⟩ := map_eq_ok_iff.mp hadd
      rfl
  | refers owner names kind =>
      have hedges := cleared_addEdges builder owner names kind.name
      rw [add] at hadd
      rcases hadded : builder.addEdges owner names kind.name with ⟨more, outcome⟩
      rw [hadded] at hadd hedges
      cases outcome with
      | error report => cases hadd
      | ok done =>
          rw [← Except.ok.inj hadd]
          exact hedges

theorem cleared_of_addAll {entries : List Entry} (hadd : builder.addAll entries = .ok extended) :
    extended.cleared = builder.cleared := by
  induction entries generalizing builder with
  | nil => rw [Except.ok.inj hadd]
  | cons entry entries ih =>
      rw [addAll] at hadd
      cases hentry : builder.add entry with
      | error report =>
          rw [hentry] at hadd
          cases hadd
      | ok middle =>
          rw [hentry] at hadd
          exact (ih hadd).trans (cleared_of_add hentry)

theorem build_onto (base builder : Builder) :
    (base.onto builder).build = .joined [base.build, builder.build] := by
  simp [build, onto, Fragment.joined]

/-- The fragment of some entries. -/
def fragmentOf (builder : Builder) (entries : List Entry) : Except ValidationReport Fragment :=
  (builder.cleared.addAll entries).map build

theorem fragmentOf_append (builder : Builder) (entries more : List Entry) :
    builder.fragmentOf (entries ++ more) = (do
      let first ← builder.fragmentOf entries
      let second ← builder.fragmentOf more
      pure (.joined [first, second])) := by
  simp only [fragmentOf, addAll_append]
  cases hentries : builder.cleared.addAll entries with
  | error report => rfl
  | ok middle =>
      have hmiddle : middle.addAll more = (builder.cleared.addAll more).map middle.onto := by
        have hcleared := cleared_of_addAll hentries
        rw [cleared_cleared] at hcleared
        rw [← hcleared, ← addAll_onto, onto_cleared]
      simp only [Except.bind, hmiddle]
      cases builder.cleared.addAll more with
      | error report => rfl
      | ok last => exact congrArg Except.ok (build_onto middle last)

end Builder

/-! ## The recursion -/

namespace Visit

mutual

/-- The fragment of a tree: its own if it is read as a whole, else those of its children in a row. -/
def recursively (visit : Visit) (builder : Builder) : Tree → Except ValidationReport Fragment
  | .node label children =>
    match visit (.node label children) with
    | some own => builder.fragmentOf own
    | none => (eachRecursively visit builder children).map .joined

/-- The fragments of some trees, from left to right. -/
def eachRecursively (visit : Visit) (builder : Builder) :
    List Tree → Except ValidationReport (List Fragment)
  | [] => .ok []
  | tree :: rest => do
    let first ← recursively visit builder tree
    let others ← eachRecursively visit builder rest
    pure (first :: others)

end

variable {visit : Visit} {builder : Builder}

theorem eachRecursively_eq_mapM (visit : Visit) (builder : Builder) (trees : List Tree) :
    visit.eachRecursively builder trees = trees.mapM (visit.recursively builder) := by
  induction trees with
  | nil => rfl
  | cons tree trees ih => rw [eachRecursively, List.mapM_cons, ih]

mutual

/-- The recursion over fragments comes to the fragment of the entries. -/
theorem recursively_eq (visit : Visit) (builder : Builder) :
    ∀ tree, visit.recursively builder tree = builder.fragmentOf (visit.entriesOf tree)
  | .node label children => by
      rw [recursively, entriesOf]
      cases visit (.node label children) with
      | some own => rfl
      | none => exact map_joined_eachRecursively visit builder children

theorem map_joined_eachRecursively (visit : Visit) (builder : Builder) :
    ∀ trees, (visit.eachRecursively builder trees).map .joined =
      builder.fragmentOf (visit.entriesBelow trees)
  | [] => rfl
  | tree :: rest => by
      have hfirst := recursively_eq visit builder tree
      have hrest := map_joined_eachRecursively visit builder rest
      rw [eachRecursively, entriesBelow, Builder.fragmentOf_append, ← hfirst, ← hrest]
      cases visit.recursively builder tree with
      | error report => rfl
      | ok first =>
          cases visit.eachRecursively builder rest with
          | error report => rfl
          | ok others => exact congrArg Except.ok (Fragment.joined_cons first others)

end

theorem fragment_eq (visit : Visit) (builtins : List String) (root : Tree) (file : String) :
    visit.fragment builtins root file =
      Builder.fragmentOf ⟨file, builtins, [], []⟩ (visit.entriesOf root) := by
  rw [fragment, entries_singleton]
  rfl

end Visit

/-- A tree without the fields under which its parent holds it. -/
def Syntax.Tree.detached : Tree → Tree
  | .node label children => .node { label with fields := [] } children

/-- A language looks at a tree from above: whether it is read as a whole depends on its type, and what
is read does not depend on its parent. -/
structure Visit.LooksDown (visit : Visit) : Prop where
  byType : ∀ tree other : Tree, tree.type = other.type → (visit tree).isSome = (visit other).isSome
  detached : ∀ tree : Tree, visit tree.detached = visit tree

theorem TypeScript.looksDown_visit : visit.LooksDown where
  byType tree other htype := by
    rw [visit_eq, visit_eq, Option.isSome_map, Option.isSome_map, htype]
  detached
    | .node _ _ => rfl

theorem Java.looksDown_visit : visit.LooksDown where
  byType tree other htype := by
    rw [visit, visit, Option.isSome_map, Option.isSome_map, htype]
  detached
    | .node _ _ => rfl

theorem Swift.looksDown_visit : visit.LooksDown where
  byType tree other htype := by
    rw [visit, visit, htype]
    split <;> rfl
  detached
    | .node _ _ => rfl

theorem Go.looksDown_visit : visit.LooksDown where
  byType tree other htype := by
    rw [visit, visit, htype]
    split
    · rfl
    split
    · rfl
    split <;> rfl
  detached
    | .node _ _ => rfl

/-! ## Extractors -/

namespace Extractor

/-- The fragment of a file by recursion. -/
def recursively (extractor : Extractor) (root : Tree) (file : String) :
    Except ExtractorFault Fragment :=
  match extractor.visit? with
  | none => .error (.noVisit extractor.name)
  | some visit =>
    (visit.recursively ⟨file, extractor.builtins, [], []⟩ root).mapError .invalid

/-- Whether a node is read as a whole. -/
def handles (extractor : Extractor) (tree : Tree) : Bool :=
  (extractor.visit?.bind fun visit => visit tree).isSome

/-- A run of children is put into one more node, in a place that the walk comes to: none of the nodes
above is handled, nor is the new one.  The new node may hold the children under other fields. -/
inductive Wraps (extractor : Extractor) : Tree → Tree → Prop where
  | here {label wrapper : Label} {before run held after : List Tree}
      (hroot : extractor.handles (.node label (before ++ run ++ after)) = false)
      (hwrapper : extractor.handles (.node wrapper held) = false)
      (hheld : held.map Tree.detached = run.map Tree.detached) :
      Wraps extractor (.node label (before ++ run ++ after))
        (.node label (before ++ .node wrapper held :: after))
  | deeper {label : Label} {before after : List Tree} {child wrapped : Tree}
      (hroot : extractor.handles (.node label (before ++ child :: after)) = false)
      (hchild : Wraps extractor child wrapped) :
      Wraps extractor (.node label (before ++ child :: after))
        (.node label (before ++ wrapped :: after))

/-- A file is read in source order: there is a fragment, the one that the recursion gives.  If the
root is of a type that is not handled, it stands for its children, and what is put into nodes of such
a type, errors among them, is read as before. -/
structure ReadsInOrder (extractor : Extractor) (root : Tree) (file : String) : Prop where
  returns : ∃ fragment, extractor.extract root file = .ok fragment
  recursively : extractor.extract root file = extractor.recursively root file
  byType : ∀ other : Tree, other.type = root.type →
    extractor.handles other = extractor.handles root
  children : extractor.handles root = false →
    extractor.extract root file =
      (root.children.mapM fun child => extractor.extract child file).map .joined
  errors : ∀ tree : Tree, tree.type = "ERROR" → extractor.handles tree = false
  wrapped : ∀ wrapped, extractor.Wraps root wrapped →
    extractor.extract wrapped file = extractor.extract root file

variable {extractor : Extractor} {visit : Visit}

theorem handles_eq (hextractor : extractor.visit? = some visit) (tree : Tree) :
    extractor.handles tree = (visit tree).isSome := by
  rw [handles, hextractor, Option.bind_some]

theorem extract_eq (hextractor : extractor.visit? = some visit) (root : Tree) (file : String) :
    extractor.extract root file =
      (Builder.fragmentOf ⟨file, extractor.builtins, [], []⟩ (visit.entriesOf root)).mapError
        .invalid := by
  rw [extract, hextractor, ← visit.fragment_eq]

theorem extract_eq_recursively (hextractor : extractor.visit? = some visit) (root : Tree)
    (file : String) : extractor.extract root file = extractor.recursively root file := by
  rw [extract_eq hextractor, recursively, hextractor, ← visit.recursively_eq]

/-- A node that is not handled stands for its children. -/
theorem extract_of_not_handles (hextractor : extractor.visit? = some visit) {root : Tree}
    (hroot : extractor.handles root = false) (file : String) :
    extractor.extract root file =
      (root.children.mapM fun child => extractor.extract child file).map .joined := by
  have hchildren : (root.children.mapM fun child => extractor.extract child file) =
      (root.children.mapM (visit.recursively ⟨file, extractor.builtins, [], []⟩)).mapError
        .invalid := by
    rw [← mapM_mapError]
    congr
    funext child
    rw [extract_eq hextractor, visit.recursively_eq]
  have hnone : visit root = none := by
    rwa [handles_eq hextractor, Option.isSome_eq_false_iff, Option.isNone_iff_eq_none] at hroot
  rw [hchildren, extract_eq hextractor, visit.entriesOf_eq, hnone, Option.getD_none,
    ← visit.map_joined_eachRecursively, visit.eachRecursively_eq_mapM]
  cases root.children.mapM (visit.recursively ⟨file, extractor.builtins, [], []⟩) <;> rfl

/-- A tree with the label of one that is not handled stands for its children, too. -/
theorem entriesOf_node (hextractor : extractor.visit? = some visit) (hvisit : visit.LooksDown)
    {label : Label} {children : List Tree}
    (hnode : extractor.handles (.node label children) = false) (others : List Tree) :
    visit.entriesOf (.node label others) = visit.entriesBelow others := by
  have hother : (visit (.node label others)).isSome = false := by
    rw [hvisit.byType (.node label others) (.node label children) rfl, ← handles_eq hextractor,
      hnode]
  rw [Option.isSome_eq_false_iff, Option.isNone_iff_eq_none] at hother
  rw [visit.entriesOf_eq, hother]
  rfl

/-- It does not matter under which fields trees are held. -/
theorem entriesBelow_map_detached (hvisit : visit.LooksDown) (trees : List Tree) :
    visit.entriesBelow (trees.map Tree.detached) = visit.entriesBelow trees := by
  have htree : ∀ tree : Tree, visit.entriesOf tree.detached = visit.entriesOf tree := by
    rintro ⟨label, children⟩
    rw [visit.entriesOf_eq, visit.entriesOf_eq, hvisit.detached]
    rfl
  induction trees with
  | nil => rfl
  | cons tree trees ih => rw [List.map_cons, Visit.entriesBelow, Visit.entriesBelow, htree, ih]

/-- What is wrapped gives the same entries. -/
theorem Wraps.entriesOf_eq {root wrapped : Tree} (hextractor : extractor.visit? = some visit)
    (hvisit : visit.LooksDown) (hwraps : extractor.Wraps root wrapped) :
    visit.entriesOf wrapped = visit.entriesOf root := by
  induction hwraps with
  | @here label wrapper before run held after hroot hwrapper hheld =>
      have hrun : visit.entriesBelow held = visit.entriesBelow run := by
        rw [← entriesBelow_map_detached hvisit held, hheld, entriesBelow_map_detached hvisit run]
      rw [entriesOf_node hextractor hvisit hroot, entriesOf_node hextractor hvisit hroot]
      simp only [Visit.entriesBelow_append, Visit.entriesBelow,
        entriesOf_node hextractor hvisit hwrapper, List.append_assoc, hrun]
  | deeper hroot hchild ih =>
      rw [entriesOf_node hextractor hvisit hroot, entriesOf_node hextractor hvisit hroot]
      simp only [Visit.entriesBelow_append, Visit.entriesBelow, ih]

theorem readsInOrder_of_looksDown {declares : Declares} {root : Tree}
    (hextractor : extractor.visit? = some visit) (hwithin : visit.IsWithin declares)
    (hvisit : visit.LooksDown) (herror : extractor.handles (.node { type := "ERROR" } []) = false)
    (hrows : root.HasRows) (file : String) : extractor.ReadsInOrder root file where
  returns := by
    obtain ⟨fragment, hfragment, -, -⟩ := reads_of_isWithin hextractor hwithin hrows file
    exact ⟨fragment, hfragment⟩
  recursively := extract_eq_recursively hextractor root file
  byType other htype := by
    rw [handles_eq hextractor, handles_eq hextractor]
    exact hvisit.byType other root htype
  children hroot := extract_of_not_handles hextractor hroot file
  errors tree htype := by
    rw [handles_eq hextractor] at herror ⊢
    rw [← herror]
    exact hvisit.byType tree _ htype
  wrapped wrapped hwraps := by
    rw [extract_eq hextractor, extract_eq hextractor, hwraps.entriesOf_eq hextractor hvisit]

/-- **Files are read in source order**, whatever the language: walking with a list of pending trees
comes to the recursion over the tree, and error nodes between the walk and a declaration make no
difference. -/
theorem reads_in_order {root : Tree} (hrows : root.HasRows) (file : String) :
    ∀ language ∈ Language.table, language.extractor.ReadsInOrder root file := by
  intro language hlanguage
  simp only [Language.table, List.mem_cons, List.not_mem_nil, or_false] at hlanguage
  rcases hlanguage with rfl | rfl | rfl | rfl
  · exact readsInOrder_of_looksDown rfl TypeScript.isWithin_visit TypeScript.looksDown_visit rfl
      hrows file
  · exact readsInOrder_of_looksDown rfl Java.isWithin_visit Java.looksDown_visit rfl hrows file
  · exact readsInOrder_of_looksDown rfl Swift.isWithin_visit Swift.looksDown_visit rfl hrows file
  · exact readsInOrder_of_looksDown rfl Go.isWithin_visit Go.looksDown_visit rfl hrows file

/-- A source with a token and a class side by side. -/
def plainSource : Tree :=
  .node { type := "program" }
    [.node { type := ";", named := false } [],
      .node { type := "class_declaration", row := 1 }
        [.node { type := "identifier", fields := ["name"], raw := .plain "Circle", row := 1 } []]]

/-- The same source with an error around all of it. -/
def wrappedSource : Tree :=
  .node { type := "program" } [.node { type := "ERROR", hasError := true } plainSource.children]

theorem reads_in_order_plainSource :
    plainSource.HasRows ∧
      (∀ language ∈ Language.table, language.extractor.ReadsInOrder plainSource "Circle.java") ∧
        java.extract wrappedSource "Circle.java" = java.extract plainSource "Circle.java" := by
  have hrows : plainSource.HasRows := by simp [plainSource, Tree.hasRows_node]
  have hreads := reads_in_order hrows "Circle.java"
  have hwraps : java.Wraps plainSource wrappedSource :=
    @Wraps.here java plainSource.label { type := "ERROR", hasError := true } []
      plainSource.children plainSource.children [] rfl rfl rfl
  exact ⟨hrows, hreads, (hreads Language.java (by simp [Language.table])).wrapped _ hwraps⟩

end Extractor
end TypeAtlas
