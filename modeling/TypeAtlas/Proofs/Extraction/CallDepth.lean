import Mathlib.Data.List.Chain
import TypeAtlas.Proofs.Extraction.Owners

/-!
# How many calls a file takes

A tree is read if the stack has room for the calls that it takes, and then as if there were no
limit; otherwise reading fails, whatever else the tree is like (`Extractor.reads_all`).  In
TypeScript and Go, where nested declarations are passed over or read one after the other, no tree
takes any calls.

`NestedReader.Calls` says which call makes which other one, so what can be on the stack are the
chains of this relation.  There is room for all of them if and only if a reading is complete
(`NestedReader.isComplete_read_iff`, by induction on the room), and complete or not, it has entries
of the unlimited reading, from the first one on (`NestedReading.isOf_read`).  A call is made for a
smaller part of the tree, so no stack is higher than the tree is large
(`NestedReader.fitsIn_of_size_le`).
-/

namespace TypeAtlas

open Syntax

/-! ## Readings that may be incomplete -/

namespace Reading

variable {reading first next : Reading} {entries more : List Entry}

/-- A reading of some entries, which may have come to an end before the last one. -/
structure IsOf (reading : Reading) (entries : List Entry) : Prop where
  begins : reading.entries <+: entries
  complete : reading.isComplete = true → reading.entries = entries

theorem isOf_overflow (entries : List Entry) : overflow.IsOf entries :=
  ⟨List.nil_prefix, fun hcomplete => absurd hcomplete Bool.false_ne_true⟩

theorem isOf_entries (entries : List Entry) : IsOf { entries } entries :=
  ⟨List.prefix_refl entries, fun _ => rfl⟩

theorem IsOf.andThen (hfirst : first.IsOf entries) (hnext : next.IsOf more) :
    (first.andThen next).IsOf (entries ++ more) := by
  rw [Reading.andThen]
  split
  next hcomplete =>
    rw [hfirst.complete hcomplete]
    exact ⟨(List.prefix_append_right_inj entries).mpr hnext.begins,
      fun hnextComplete => congrArg _ (hnext.complete hnextComplete)⟩
  next hincomplete =>
    exact ⟨hfirst.begins.trans (List.prefix_append entries more), fun hcomplete =>
      absurd hcomplete hincomplete⟩

theorem isComplete_andThen :
    (first.andThen next).isComplete = true ↔ first.isComplete = true ∧ next.isComplete = true := by
  rw [andThen]
  cases hfirst : first.isComplete <;> simp [hfirst]

theorem isOf_all {items : List α} {read : α → Reading} {expand : α → List Entry}
    (hread : ∀ item ∈ items, (read item).IsOf (expand item)) :
    (all (items.map read)).IsOf (items.flatMap expand) := by
  induction items with
  | nil => exact isOf_entries []
  | cons item items ih =>
      obtain ⟨hitem, hitems⟩ := List.forall_mem_cons.mp hread
      exact hitem.andThen (ih hitems)

theorem isComplete_all_iff {readings : List Reading} :
    (all readings).isComplete = true ↔ ∀ reading ∈ readings, reading.isComplete = true := by
  induction readings with
  | nil => simp [all]
  | cons first rest ih => rw [all, isComplete_andThen, ih, List.forall_mem_cons]

end Reading

/-! ## The walk -/

theorem Visit.Reaches.size_le {visit : Visit} {root tree : Tree} (htree : visit.Reaches root tree) :
    tree.size ≤ root.size := by
  induction htree with
  | self => exact Nat.le_refl _
  | child _ hchild _ ih => exact Nat.le_trans ih (Nat.le_of_lt (Tree.size_lt_of_mem hchild))

namespace Reading

variable {visit : Visit} {read : Tree → List Entry → Reading}

/-- A walk reads what there is to read, if each of its readings does. -/
theorem isOf_walk (hread : ∀ tree own, visit tree = some own → (read tree own).IsOf own)
    (pending : List Tree) :
    (walk (fun tree => (visit tree).map (read tree)) pending).IsOf (visit.entries pending) := by
  fun_induction visit.entries pending with
  | case1 =>
      rw [walk]
      exact isOf_entries []
  | case2 tree rest own hown ih =>
      rw [walk, hown]
      exact (hread tree own hown).andThen ih
  | case3 tree rest hnone ih =>
      rw [walk, hnone]
      exact ih

/-- A walk is complete if every reading is to which it comes. -/
theorem isComplete_walk_iff (pending : List Tree) :
    (walk (fun tree => (visit tree).map (read tree)) pending).isComplete = true ↔
      ∀ root ∈ pending, ∀ tree, visit.Reaches root tree → ∀ own, visit tree = some own →
        (read tree own).isComplete = true := by
  fun_induction visit.entries pending with
  | case1 =>
      rw [walk]
      simp
  | case2 tree rest own hown ih =>
      rw [walk, hown]
      simp only [Option.map_some, isComplete_andThen, ih, List.forall_mem_cons]
      refine and_congr_left fun _ => ⟨fun hcomplete other hother own' hown' => ?_, fun hall => ?_⟩
      · cases hother with
        | self =>
            rw [hown] at hown'
            rwa [← Option.some.inj hown']
        | child hnone =>
            rw [hown] at hnone
            cases hnone
      · exact hall tree .self own hown
  | case3 tree rest hnone ih =>
      rw [walk, hnone]
      simp only [Option.map_none, ih, List.forall_mem_cons, List.forall_mem_append]
      refine and_congr_left fun _ =>
        ⟨fun hall other hother own hown => ?_, fun hall child hchild => ?_⟩
      · cases hother with
        | self =>
            rw [hnone] at hown
            cases hown
        | child _ hchild hbelow => exact hall _ hchild other hbelow own hown
      · exact fun other hother => hall other (.child hnone hchild hother)

end Reading

/-! ## Calls -/

namespace NestedReader

variable {reader : NestedReader}

/-- One call makes the other one. -/
def Calls (reader : NestedReader) (call next : Call) : Prop := .call next ∈ reader.steps call

/-- **A reading is complete** if there is room for every stack that begins with the call. -/
theorem isComplete_read_iff {room : Nat} {call : Call} :
    (reader.read room call).isComplete = true ↔
      ∀ calls, (call :: calls).IsChain reader.Calls → (call :: calls).length ≤ room := by
  induction room generalizing call with
  | zero =>
      rw [read]
      constructor
      · exact fun hcomplete => absurd hcomplete Bool.false_ne_true
      · exact fun hroom => absurd (hroom [] (.singleton call)) (Nat.not_succ_le_zero _)
  | succ room ih =>
      rw [read, Reading.isComplete_all_iff, List.forall_mem_map]
      constructor
      · intro hsteps calls hchain
        cases hchain with
        | singleton => exact Nat.succ_pos room
        | cons_cons hcall hrest =>
            have hnext := hsteps _ hcall
            exact Nat.succ_le_succ (ih.mp hnext _ hrest)
      · intro hroom step hstep
        cases step with
        | entries own => rfl
        | call next =>
            refine ih.mpr fun calls hchain => ?_
            exact Nat.le_of_succ_le_succ (hroom (next :: calls) (.cons_cons hstep hchain))

/-- The tree of which a call reads a part. -/
def Call.tree : Call → Tree
  | .declaration tree => tree
  | .members _ tree => tree

/-- A call is made for a child. -/
theorem Calls.mem_children {call next : Call} (hcall : reader.Calls call next) :
    next.tree ∈ call.tree.children := by
  cases call with
  | declaration tree =>
      simp only [Calls, steps, List.mem_flatMap, List.mem_cons, List.mem_map, Option.mem_toList,
        reduceCtorEq, false_or, Step.call.injEq] at hcall
      obtain ⟨name, -, body, hbody, rfl⟩ := hcall
      exact List.mem_of_find?_eq_some hbody
  | members owner tree =>
      obtain ⟨child, hchild, hstep⟩ := List.mem_map.mp hcall
      have hmem : child ∈ tree.children := (List.mem_filter.mp hchild).1
      split at hstep
      next => exact Step.call.inj hstep ▸ hmem
      next =>
        split at hstep
        next => exact Step.call.inj hstep ▸ hmem
        next => cases hstep

/-- No stack is higher than the tree is large. -/
theorem length_le_size {call : Call} {calls : List Call}
    (hchain : (call :: calls).IsChain reader.Calls) : (call :: calls).length ≤ call.tree.size := by
  induction calls generalizing call with
  | nil => exact call.tree.size_pos
  | cons next calls ih =>
      obtain ⟨hcall, hrest⟩ := List.isChain_cons_cons.mp hchain
      have hsize := Tree.size_lt_of_mem hcall.mem_children
      exact Nat.le_trans (Nat.succ_le_succ (ih hrest)) hsize

/-- Some calls are on the stack while a file is read, the first one for a declaration at which the
walk arrives. -/
structure Stacks (reader : NestedReader) (visit : Visit) (root : Tree) (calls : List Call) :
    Prop where
  declaration : ∃ tree, visit.Reaches root tree ∧ (visit tree).isSome ∧
    calls.head? = some (.declaration tree)
  chain : calls.IsChain reader.Calls

/-- There is room for all the calls that it takes to read a file. -/
def FitsIn (reader : NestedReader) (visit : Visit) (root : Tree) (room : Nat) : Prop :=
  ∀ calls, reader.Stacks visit root calls → calls.length ≤ room

theorem fitsIn_of_size_le {visit : Visit} {root : Tree} {room : Nat} (hroom : root.size ≤ room) :
    reader.FitsIn visit root room := by
  rintro calls ⟨⟨tree, hreaches, -, hhead⟩, hchain⟩
  obtain ⟨rest, rfl⟩ := List.head?_eq_some_iff.mp hhead
  exact Nat.le_trans (length_le_size hchain) (Nat.le_trans hreaches.size_le hroom)

end NestedReader

/-! ## With a limit and without -/

namespace NestedReading

variable (reading : NestedReading)

/-- What is particular to a language. -/
def reader : NestedReader where
  name? := reading.rule.name?
  heading := reading.heading
  isNested := reading.rule.isNested
  holdsMembers := reading.rule.holdsMembers
  member := reading.member

/-- What a call reads if there is room for everything. -/
def whole : NestedReader.Call → List Entry
  | .declaration tree => reading.declaration tree
  | .members owner tree => reading.members owner tree

/-- What a step reads if there is room for everything. -/
def ownOf : NestedReader.Step → List Entry
  | .entries own => own
  | .call next => reading.whole next

theorem whole_eq (call : NestedReader.Call) :
    reading.whole call = (reading.reader.steps call).flatMap reading.ownOf := by
  cases call with
  | declaration tree =>
      rw [whole, reading.declaration_eq, NestedReader.steps, List.flatMap_assoc]
      simp only [List.flatMap_cons, List.flatMap_map]
      rfl
  | members owner tree =>
      rw [whole, reading.members_eq, NestedReader.steps, List.flatMap_map]
      refine List.flatMap_congr fun child _ => ?_
      change _ = reading.ownOf (if reading.rule.isNested child then _ else _)
      split
      · rfl
      · change _ = reading.ownOf (if reading.rule.holdsMembers child then _ else _)
        split <;> rfl

/-- **A limit only cuts off.**  What is read with a limit is the beginning of what is read without
one, and all of it if the reading is complete. -/
theorem isOf_read (room : Nat) (call : NestedReader.Call) :
    (reading.reader.read room call).IsOf (reading.whole call) := by
  induction room generalizing call with
  | zero => exact Reading.isOf_overflow _
  | succ room ih =>
      rw [NestedReader.read, reading.whole_eq]
      refine Reading.isOf_all fun step _ => ?_
      cases step with
      | entries own => exact Reading.isOf_entries own
      | call next => exact ih next

end NestedReading

namespace Extractor

variable {extractor : Extractor} {visit : Visit} {root : Tree}

/-- A tree with valid entries is read as without a limit, or there is no room. -/
theorem extractWithin_eq {room : Nat} (hextractor : extractor.visit? = some visit)
    (hvalid : ∀ entry ∈ visit.entriesOf root, entry.IsValid)
    (hread : ∀ tree own, visit tree = some own → (extractor.readOwn room tree own).IsOf own)
    (file : String) :
    extractor.extractWithin room root file =
      if (extractor.readFile visit room root).isComplete then
        extractor.extract root file
      else .error .tooDeep := by
  have hwalk : (extractor.readFile visit room root).IsOf (visit.entriesOf root) := by
    rw [← visit.entries_singleton]
    exact Reading.isOf_walk hread [root]
  have hadd := Builder.addAll_eq_extend ⟨file, extractor.builtins, [], []⟩
    fun entry hentry => hvalid entry (hwalk.begins.subset hentry)
  rw [extractWithin, hextractor, extract_of_valid hextractor hvalid]
  simp only [hadd]
  split
  next hcomplete =>
    rw [hwalk.complete hcomplete]
    simp [Builder.extend, Builder.build, Fragment.ofEntries]
  next => rfl

/-- With room for so many calls a tree is read, and as if there were no limit. -/
def ReadsWithin (extractor : Extractor) (room : Nat) (declares : Declares) (root : Tree)
    (file : String) : Prop :=
  extractor.extractWithin room root file = extractor.extract root file ∧
    extractor.Reads declares root file

/-- A tree is read if the stack has room for the calls that it takes, and only then; a stack as high
as the tree is large has room. -/
structure ReadsWithRoom (extractor : Extractor) (reader : NestedReader) (visit : Visit)
    (declares : Declares) (root : Tree) (file : String) : Prop where
  reads : ∀ room, reader.FitsIn visit root room → extractor.ReadsWithin room declares root file
  overflows : ∀ room, ¬ reader.FitsIn visit root room →
    extractor.extractWithin room root file = .error .tooDeep
  large : ∀ room, root.size ≤ room → extractor.ReadsWithin room declares root file

/-- Without nested declarations there are no calls. -/
theorem readsWithin_of_reader?_eq_none {declares : Declares}
    (hextractor : extractor.visit? = some visit) (hnone : extractor.reader? = none)
    (hvisit : visit.IsWithin declares) (hrows : root.HasRows) (file : String) (room : Nat) :
    extractor.ReadsWithin room declares root file := by
  have hown : ∀ tree own, extractor.readOwn room tree own = { entries := own } := by
    intro tree own
    rw [readOwn, hnone]
  have hcomplete : (extractor.readFile visit room root).isComplete = true :=
    (Reading.isComplete_walk_iff [root]).mpr fun _ _ tree _ own _ => hown tree own ▸ rfl
  refine ⟨?_, reads_of_isWithin hextractor hvisit hrows file⟩
  rw [extractWithin_eq hextractor (isValid_of_isWithin hvisit hrows)
    (fun tree own _ => hown tree own ▸ Reading.isOf_entries own), if_pos hcomplete]

section

variable {reading : NestedReading} (hreader : extractor.reader? = some reading.reader)

include hreader

theorem readOwn_of_reader?_eq_some (room : Nat) (tree : Tree) (own : List Entry) :
    extractor.readOwn room tree own = reading.reader.read room (.declaration tree) := by
  rw [readOwn, hreader]

theorem isOf_readOwn {room : Nat} {tree : Tree} {own : List Entry}
    (hvisited : reading.visit tree = some own) : (extractor.readOwn room tree own).IsOf own := by
  rw [readOwn_of_reader?_eq_some hreader]
  rw [reading.visit_eq] at hvisited
  split at hvisited
  next => exact Option.some.inj hvisited ▸ reading.isOf_read room (.declaration tree)
  next => cases hvisited

/-- A file is read to its end if there is room for all the calls that it takes. -/
theorem isComplete_readFile_iff {room : Nat} :
    (extractor.readFile reading.visit room root).isComplete = true ↔
      reading.reader.FitsIn reading.visit root room := by
  rw [readFile, Reading.isComplete_walk_iff, List.forall_mem_singleton]
  simp only [readOwn_of_reader?_eq_some hreader, NestedReader.isComplete_read_iff]
  constructor
  · rintro hroom calls ⟨⟨tree, hreaches, hvisited, hhead⟩, hchain⟩
    obtain ⟨own, hvisited⟩ := Option.isSome_iff_exists.mp hvisited
    obtain ⟨rest, rfl⟩ := List.head?_eq_some_iff.mp hhead
    exact hroom tree hreaches own hvisited rest hchain
  · intro hfits tree hreaches own hvisited rest hchain
    exact hfits _ ⟨⟨tree, hreaches, Option.isSome_of_eq_some hvisited, rfl⟩, hchain⟩

end

/-- Nested declarations take the calls that the stack has room for, or has not. -/
theorem readsWithRoom_of_reader?_eq_some {declares : Declares}
    (reading : NestedReading) (hextractor : extractor.visit? = some reading.visit)
    (hreader : extractor.reader? = some reading.reader) (hvisit : reading.visit.IsWithin declares)
    (hrows : root.HasRows) (file : String) :
    extractor.ReadsWithRoom reading.reader reading.visit declares root file := by
  have hresult : ∀ room, extractor.extractWithin room root file =
      if (extractor.readFile reading.visit room root).isComplete then
        extractor.extract root file
      else .error .tooDeep :=
    fun room => extractWithin_eq hextractor (isValid_of_isWithin hvisit hrows)
      (fun _ _ hvisited => isOf_readOwn hreader hvisited) file
  have hreads : ∀ room, reading.reader.FitsIn reading.visit root room →
      extractor.ReadsWithin room declares root file := by
    intro room hfits
    have hcomplete := (isComplete_readFile_iff hreader).mpr hfits
    exact ⟨(hresult room).trans (if_pos hcomplete), reads_of_isWithin hextractor hvisit hrows file⟩
  constructor
  case reads => exact hreads
  case overflows =>
    intro room hover
    have hincomplete := mt (isComplete_readFile_iff hreader).mp hover
    exact (hresult room).trans (if_neg hincomplete)
  case large => exact fun room hsize => hreads room (NestedReader.fitsIn_of_size_le hsize)

/-- **No tree is too broken to be read**, but it may be too deep.  Whatever error recovery makes of
a source, in TypeScript and Go there is a fragment; its nodes have names and say where their
declarations are, and its edges have ends.  So there is in Java and Swift, if the stack has room for
the calls that nested declarations take, and otherwise reading fails. -/
theorem reads_all (hrows : root.HasRows) (file : String) :
    (∀ room, typeScript.ReadsWithin room TypeScript.declares root file) ∧
      (∀ room, go.ReadsWithin room Go.declares root file) ∧
      java.ReadsWithRoom Java.reader Java.visit Java.declares root file ∧
      swift.ReadsWithRoom Swift.reader Swift.visit Swift.declares root file :=
  ⟨readsWithin_of_reader?_eq_none rfl rfl TypeScript.isWithin_visit hrows file,
    readsWithin_of_reader?_eq_none rfl rfl Go.isWithin_visit hrows file,
    readsWithRoom_of_reader?_eq_some Java.reading rfl rfl Java.isWithin_visit hrows file,
    readsWithRoom_of_reader?_eq_some Swift.reading rfl rfl Swift.isWithin_visit hrows file⟩

end Extractor

/-- A class whose name is cut in the middle of a character, with a body that holds an error and a
class without a name. -/
def brokenClass : Tree :=
  .node { type := "class_declaration", row := 4 }
    [.node { type := "identifier", fields := ["name", "name"], raw := .encoded [65, 0xE2, 0x82] } [],
      .node { type := "class_body", fields := ["body"], hasError := true, row := 5 }
        [.node { type := "ERROR", raw := .plain " ", row := 6 } [],
          .node { type := "class_declaration", row := 6 } []]]

theorem Extractor.reads_all_brokenClass :
    brokenClass.HasRows ∧
      typeScript.ReadsWithin stackRoom TypeScript.declares brokenClass "" ∧
      go.ReadsWithin stackRoom Go.declares brokenClass "" ∧
      java.ReadsWithin stackRoom Java.declares brokenClass "" ∧
      swift.ReadsWithin stackRoom Swift.declares brokenClass "" := by
  have hrows : brokenClass.HasRows := by simp [brokenClass, Tree.hasRows_node]
  have hsize : brokenClass.size ≤ stackRoom := by decide
  obtain ⟨htypeScript, hgo, hjava, hswift⟩ := reads_all hrows ""
  exact ⟨hrows, htypeScript stackRoom, hgo stackRoom, hjava.large stackRoom hsize,
    hswift.large stackRoom hsize⟩

/-! ## A class that is too deep -/

namespace Java

/-- Nodes that hold members, each below the one before. -/
def holders : Nat → Tree
  | 0 => .node { type := "enum_body_declarations" } []
  | depth + 1 => .node { type := "enum_body_declarations" } [holders depth]

/-- A body with such nodes. -/
def deepBody (depth : Nat) : Tree :=
  .node { type := "class_body", fields := ["body"] } [holders depth]

def deepDeclaration (depth : Nat) : Tree :=
  .node { type := "class_declaration" }
    [.node { type := "identifier", fields := ["name"], raw := .plain "A" } [], deepBody depth]

/-- A file with one class that has such a body. -/
def deepClass (depth : Nat) : Tree :=
  .node { type := "program" } [deepDeclaration depth]

theorem hasRows_holders (depth : Nat) : (holders depth).HasRows := by
  induction depth with
  | zero => simp [holders, Tree.hasRows_node]
  | succ depth ih => simp [holders, Tree.hasRows_node, ih]

theorem hasRows_deepClass (depth : Nat) : (deepClass depth).HasRows := by
  simp [deepClass, deepDeclaration, deepBody, Tree.hasRows_node, hasRows_holders]

theorem exists_isChain_holders (owner : String) (depth : Nat) :
    ∃ calls : List NestedReader.Call, calls.length = depth ∧
      (.members owner (holders depth) :: calls).IsChain reader.Calls := by
  induction depth with
  | zero => exact ⟨[], rfl, .singleton _⟩
  | succ depth ih =>
      obtain ⟨calls, hlength, hchain⟩ := ih
      have hcall : reader.Calls (.members owner (holders (depth + 1)))
          (.members owner (holders depth)) := by
        cases depth <;> exact List.mem_singleton.mpr rfl
      exact ⟨_ :: calls, congrArg Nat.succ hlength, .cons_cons hcall hchain⟩

/-- It takes one call for the class, one for its body, and one for each of the nodes. -/
theorem not_fitsIn_deepClass {depth room : Nat} (hroom : room < depth + 3) :
    ¬ reader.FitsIn visit (deepClass depth) room := by
  obtain ⟨calls, hlength, hchain⟩ := exists_isChain_holders "A" depth
  have hreaches : visit.Reaches (deepClass depth) (deepDeclaration depth) :=
    .child rfl (List.mem_singleton.mpr rfl) .self
  have hbody : reader.Calls (.declaration (deepDeclaration depth)) (.members "A" (deepBody depth)) :=
    List.mem_cons_of_mem _ (List.mem_singleton.mpr rfl)
  have hholders : reader.Calls (.members "A" (deepBody depth)) (.members "A" (holders depth)) := by
    cases depth <;> exact List.mem_singleton.mpr rfl
  intro hfits
  have hlong := hfits _ ⟨⟨_, hreaches, rfl, rfl⟩, .cons_cons hbody (.cons_cons hholders hchain)⟩
  simp only [List.length_cons] at hlong
  omega

end Java

/-- A class may be too deep for the stack.  Its tree has no negative rows, but it is not read. -/
theorem Extractor.not_reads_all_deepClass :
    (Java.deepClass stackRoom).HasRows ∧
      java.extractWithin stackRoom (Java.deepClass stackRoom) "A.java" = .error .tooDeep := by
  have hrows := Java.hasRows_deepClass stackRoom
  have hover : ¬ Java.reader.FitsIn Java.visit (Java.deepClass stackRoom) stackRoom :=
    Java.not_fitsIn_deepClass (Nat.lt_add_of_pos_right (by decide))
  have hjava : java.ReadsWithRoom Java.reader Java.visit Java.declares
      (Java.deepClass stackRoom) "A.java" :=
    readsWithRoom_of_reader?_eq_some Java.reading rfl rfl Java.isWithin_visit hrows "A.java"
  exact ⟨hrows, hjava.overflows stackRoom hover⟩

end TypeAtlas
