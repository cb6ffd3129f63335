import Mathlib.Data.List.Nodup
import TypeAtlas.Proofs.Source.Names
import TypeAtlas.Source.FileTree

/-!
# The files of a plain tree

A tree is plain if it has no links and every directory calls its entries by different names.  Its
leaves are then files, and no two have the same names on the way to them (`IsPlain.nodup_leaves`).

Not to go into directories of some names is the same as to go everywhere and to leave out the leaves
with such a directory on their way (`leavesIn_eq_filter`), and what lies below a place of a tree is
found among the leaves of the whole tree, by the names that they have from that place on
(`IsPlain.at_spec`).
-/

namespace TypeAtlas.FileTree

/-- A tree of files and directories, without links. -/
inductive IsPlain : FileTree → Prop where
  | file (octets : List UInt8) : IsPlain (.file octets)
  | directory {entries : List (String × FileTree)} (hnodup : (entries.map Prod.fst).Nodup)
      (hname : ∀ entry ∈ entries, Path.IsName entry.1)
      (hplain : ∀ entry ∈ entries, IsPlain entry.2) : IsPlain (.directory entries)

/-- All leaves of a tree. -/
abbrev allLeaves (tree : FileTree) : List (List String × FileTree) := tree.leaves fun _ => false

/-! ## Leaves of entries -/

/-- The leaves below one entry, unless it is a directory to be skipped. -/
def leavesOf (skip : String → Bool) (entry : String × FileTree) : List (List String × FileTree) :=
  if entry.2.isDirectory && skip entry.1 then []
  else (entry.2.leaves skip).map fun leaf => (entry.1 :: leaf.1, leaf.2)

theorem leavesIn_eq_flatMap (skip : String → Bool) (entries : List (String × FileTree)) :
    leavesIn skip entries = entries.flatMap (leavesOf skip) := by
  induction entries with
  | nil => rfl
  | cons entry entries ih =>
      rw [leavesIn, ih, List.flatMap_cons]
      rfl

theorem leavesOf_false (entry : String × FileTree) :
    leavesOf (fun _ => false) entry =
      entry.2.allLeaves.map fun leaf => (entry.1 :: leaf.1, leaf.2) := by
  rw [leavesOf, Bool.and_false]
  rfl

theorem ne_nil_of_mem_leavesIn {skip : String → Bool} {entries : List (String × FileTree)}
    {leaf : List String × FileTree} (hleaf : leaf ∈ leavesIn skip entries) : leaf.1 ≠ [] := by
  rw [leavesIn_eq_flatMap] at hleaf
  obtain ⟨entry, -, hleaf⟩ := List.mem_flatMap.mp hleaf
  rw [leavesOf] at hleaf
  split at hleaf
  next => exact absurd hleaf List.not_mem_nil
  next =>
    obtain ⟨below, -, rfl⟩ := List.mem_map.mp hleaf
    exact List.cons_ne_nil _ _

/-! ## Skipping -/

/-- Whether no directory on the way to a leaf is to be skipped. -/
def isReached (skip : String → Bool) (leaf : List String × FileTree) : Bool :=
  !leaf.1.dropLast.any skip

/-- A leaf of a directory is reached through the directory if that is not skipped. -/
theorem isReached_below {skip : String → Bool} {entries : List (String × FileTree)}
    {leaf : List String × FileTree} (hleaf : leaf ∈ (directory entries).allLeaves) (name : String) :
    isReached skip (name :: leaf.1, leaf.2) = (!skip name && isReached skip leaf) := by
  have hnames : leaf.1 ≠ [] := ne_nil_of_mem_leavesIn hleaf
  rw [isReached, isReached, List.dropLast_cons_of_ne_nil hnames, List.any_cons, Bool.not_or]

theorem leavesOf_directory (skip : String → Bool) (name : String)
    (entries : List (String × FileTree)) :
    leavesOf skip (name, directory entries) =
      if skip name then []
      else ((directory entries).leaves skip).map fun leaf => (name :: leaf.1, leaf.2) := rfl

theorem leavesOf_eq_filter {skip : String → Bool} {entry : String × FileTree}
    (htree : entry.2.leaves skip = entry.2.allLeaves.filter (isReached skip)) :
    leavesOf skip entry = (leavesOf (fun _ => false) entry).filter (isReached skip) := by
  obtain ⟨name, tree⟩ := entry
  cases tree with
  | file octets => rfl
  | link target => rfl
  | directory entries =>
      rw [leavesOf_false, List.filter_map, leavesOf_directory]
      cases hskip : skip name with
      | true =>
          have hnone : (directory entries).allLeaves.filter
              (isReached skip ∘ fun leaf => (name :: leaf.1, leaf.2)) = [] := by
            rw [List.filter_eq_nil_iff]
            intro leaf hleaf
            rw [Function.comp_apply, isReached_below hleaf, hskip]
            exact Bool.false_ne_true
          rw [if_pos rfl, hnone, List.map_nil]
      | false =>
          have hsame : (directory entries).allLeaves.filter
              (isReached skip ∘ fun leaf => (name :: leaf.1, leaf.2)) =
                (directory entries).allLeaves.filter (isReached skip) := by
            apply List.filter_congr
            intro leaf hleaf
            rw [Function.comp_apply, isReached_below hleaf, hskip]
            rfl
          rw [if_neg Bool.false_ne_true, hsame, htree]

-- The induction is on the tree; a directory hands it down to its entries, one after the other.
mutual

theorem leaves_eq_filter (skip : String → Bool) :
    ∀ tree : FileTree, tree.leaves skip = tree.allLeaves.filter (isReached skip)
  | .file _ => rfl
  | .link _ => rfl
  | .directory entries => leavesIn_eq_filter skip entries

theorem leavesIn_eq_filter (skip : String → Bool) :
    ∀ entries : List (String × FileTree), leavesIn skip entries =
      (leavesIn (fun _ => false) entries).filter (isReached skip)
  | [] => rfl
  | (name, tree) :: rest => by
      have hfirst : leavesOf skip (name, tree) =
          (leavesOf (fun _ => false) (name, tree)).filter (isReached skip) :=
        leavesOf_eq_filter (leaves_eq_filter skip tree)
      have hrest := leavesIn_eq_filter skip rest
      calc leavesIn skip ((name, tree) :: rest)
          = leavesOf skip (name, tree) ++ leavesIn skip rest := rfl
        _ = (leavesOf (fun _ => false) (name, tree) ++
              leavesIn (fun _ => false) rest).filter (isReached skip) := by
            rw [List.filter_append, ← hfirst, ← hrest]

end

/-! ## Plain trees -/

theorem IsPlain.leaf_spec {tree : FileTree} (hplain : tree.IsPlain) :
    ∀ leaf ∈ tree.allLeaves, (∃ octets, leaf.2 = .file octets) ∧
      ∀ name ∈ leaf.1, Path.IsName name := by
  induction hplain with
  | file octets =>
      intro leaf hleaf
      obtain rfl : leaf = ([], .file octets) := List.mem_singleton.mp hleaf
      exact ⟨⟨octets, rfl⟩, nofun⟩
  | directory hnodup hname hplain ih =>
      intro leaf hleaf
      rw [allLeaves, leaves, leavesIn_eq_flatMap] at hleaf
      obtain ⟨entry, hentry, hleaf⟩ := List.mem_flatMap.mp hleaf
      rw [leavesOf_false] at hleaf
      obtain ⟨below, hbelow, rfl⟩ := List.mem_map.mp hleaf
      obtain ⟨hfile, hnames⟩ := ih entry hentry below hbelow
      exact ⟨hfile, List.forall_mem_cons.mpr ⟨hname entry hentry, hnames⟩⟩

/-- Different leaves have different names on the way to them. -/
theorem IsPlain.nodup_leaves {tree : FileTree} (hplain : tree.IsPlain) :
    (tree.allLeaves.map Prod.fst).Nodup := by
  induction hplain with
  | file octets => exact List.pairwise_singleton _ _
  | @directory entries hnodup hname hplain ih =>
      rw [allLeaves, leaves, leavesIn_eq_flatMap, List.map_flatMap, List.Nodup, List.pairwise_flatMap]
      constructor
      · intro entry hentry
        rw [leavesOf_false, List.map_map, List.pairwise_map]
        apply (List.pairwise_map.mp (ih entry hentry)).imp
        intro leaf other hdiffer hsame
        exact hdiffer (List.cons.inj hsame).2
      · apply (List.pairwise_map.mp hnodup).imp
        intro entry other hdiffer
        rw [leavesOf_false, leavesOf_false, List.map_map, List.map_map]
        intro names hnames names' hnames' hsame
        obtain ⟨leaf, -, rfl⟩ := List.mem_map.mp hnames
        obtain ⟨leaf', -, rfl⟩ := List.mem_map.mp hnames'
        exact hdiffer (List.cons.inj hsame).1

/-! ## Places -/

/-- The leaves below a place, by their names from there on. -/
def leavesFrom (place : Location) (leaves : List (List String × FileTree)) :
    List (List String × FileTree) :=
  leaves.filterMap fun leaf => (Location.below? place leaf.1).map fun names => (names, leaf.2)

theorem leavesFrom_nil (leaves : List (List String × FileTree)) : leavesFrom [] leaves = leaves :=
  List.filterMap_some

theorem leavesFrom_cons (name : String) (place : Location) (entry : String × FileTree) :
    leavesFrom (name :: place) (leavesOf (fun _ => false) entry) =
      if entry.1 = name then leavesFrom place entry.2.allLeaves else [] := by
  rw [leavesOf_false, leavesFrom, List.filterMap_map]
  split
  next hname =>
    apply List.filterMap_congr
    intro leaf _
    simp [Location.below?, hname]
  next hname =>
    rw [List.filterMap_eq_nil_iff]
    intro leaf _
    have hdiffer : ¬ name = entry.1 := Ne.symm hname
    simp [Location.below?, hdiffer]

theorem leavesFrom_flatMap (name : String) (place : Location) (entries : List (String × FileTree)) :
    leavesFrom (name :: place) (entries.flatMap (leavesOf fun _ => false)) =
      entries.flatMap fun entry =>
        if entry.1 = name then leavesFrom place entry.2.allLeaves else [] := by
  rw [leavesFrom, List.filterMap_flatMap]
  exact List.flatMap_congr fun entry _ => leavesFrom_cons name place entry

/-- Of entries with different names, the leaves below a place are those below one of them. -/
theorem leavesFrom_leavesIn {entries : List (String × FileTree)} {name : String} {tree : FileTree}
    (hnodup : (entries.map Prod.fst).Nodup) (hmem : (name, tree) ∈ entries) (place : Location) :
    leavesFrom (name :: place) (leavesIn (fun _ => false) entries) =
      leavesFrom place tree.allLeaves := by
  obtain ⟨before, after, rfl⟩ := List.append_of_mem hmem
  rw [List.map_append, List.map_cons, List.nodup_append] at hnodup
  obtain ⟨-, hafter, hbefore⟩ := hnodup
  have hothers : ∀ others : List (String × FileTree), (∀ entry ∈ others, entry.1 ≠ name) →
      (others.flatMap fun entry =>
        if entry.1 = name then leavesFrom place entry.2.allLeaves else []) = [] := by
    intro others hdiffer
    rw [List.flatMap_eq_nil_iff]
    intro entry hentry
    exact if_neg (hdiffer entry hentry)
  rw [leavesIn_eq_flatMap, leavesFrom_flatMap, List.flatMap_append, List.flatMap_cons, if_pos rfl,
    hothers before, hothers after, List.nil_append, List.append_nil]
  · intro entry hentry hsame
    have hkey : entry.1 ∈ after.map Prod.fst := List.mem_map_of_mem hentry
    exact (List.nodup_cons.mp hafter).1 (hsame ▸ hkey)
  · intro entry hentry
    exact hbefore entry.1 (List.mem_map_of_mem hentry) name List.mem_cons_self

/-- What stands at a place of a plain tree is plain, and its leaves are those below the place. -/
theorem IsPlain.at_spec {tree held : FileTree} (hplain : tree.IsPlain) {place : Location}
    (hheld : tree.at? place = .ok held) :
    held.IsPlain ∧ (∀ name ∈ place, Path.IsName name) ∧
      leavesFrom place tree.allLeaves = held.allLeaves := by
  induction place generalizing tree with
  | nil =>
      obtain rfl : tree = held := Except.ok.inj hheld
      exact ⟨hplain, nofun, leavesFrom_nil _⟩
  | cons name place ih =>
      cases hplain with
      | file octets => cases hheld
      | @directory entries hnodup hname hentries =>
          rw [at?] at hheld
          split at hheld
          next child hlookup =>
            have hmem : (name, child) ∈ entries := mem_of_lookup hlookup
            obtain ⟨hheldPlain, hplace, hbelow⟩ := ih (hentries (name, child) hmem) hheld
            refine ⟨hheldPlain, ?_, ?_⟩
            · exact List.forall_mem_cons.mpr ⟨hname (name, child) hmem, hplace⟩
            · exact (leavesFrom_leavesIn hnodup hmem place).trans hbelow
          next => cases hheld

end TypeAtlas.FileTree
