import TypeAtlas.Syntax.Tree

/-!
# Positions in a tree

A position is the way from the root of a tree to one of its subtrees: the indices of the children to
go down to.  Subtrees may be alike, positions tell them apart.

`Tree.positions` lists the positions of a tree in pre-order: every subtree after its parent, and
children from left to right.  The list has exactly the positions of subtrees (`mem_positions_iff`), and
it is sorted (`pairwise_positions`), so each of them is in it once.
-/

namespace TypeAtlas

/-! ## Items with their indices -/

theorem flatMap_zipIdx_fst (items : List α) (start : Nat) (expand : α → List β) :
    ((items.zipIdx start).flatMap fun entry => expand entry.1) = items.flatMap expand := by
  induction items generalizing start with
  | nil => rfl
  | cons item items ih => rw [List.zipIdx_cons, List.flatMap_cons, List.flatMap_cons, ih]

/-- Only the first suitable item is expanded. -/
theorem flatMap_zipIdx_findIdx? (items : List α) (suits : α → Bool) (start : Nat)
    (expand : α → List β) :
    ((items.zipIdx start).flatMap fun entry =>
        if (items.findIdx? suits).map (· + start) = some entry.2 then expand entry.1 else []) =
      (items.find? suits).toList.flatMap expand := by
  induction items generalizing start with
  | nil => rfl
  | cons item items ih =>
      rw [List.zipIdx_cons, List.flatMap_cons, List.findIdx?_cons, List.find?_cons]
      cases hsuits : suits item with
      | true =>
          have hlater : ∀ entry ∈ items.zipIdx (start + 1), start ≠ entry.2 := by
            intro entry hentry
            exact Nat.ne_of_lt (List.le_snd_of_mem_zipIdx hentry)
          have hrest : ((items.zipIdx (start + 1)).flatMap fun entry =>
              if some start = some entry.2 then expand entry.1 else []) = [] := by
            rw [List.flatMap_eq_nil_iff]
            intro entry hentry
            rw [if_neg fun heq => hlater entry hentry (Option.some.inj heq)]
          simpa using hrest
      | false =>
          have hshift : ((items.findIdx? suits).map (· + 1)).map (· + start) =
              (items.findIdx? suits).map (· + (start + 1)) := by
            rw [Option.map_map]
            apply Option.map_congr
            intro index _
            exact Nat.add_right_comm index 1 start
          have hfirst : (items.findIdx? suits).map (· + (start + 1)) ≠ some start := by
            intro heq
            obtain ⟨index, -, hindex⟩ := Option.map_eq_some_iff.mp heq
            omega
          rw [if_neg Bool.false_ne_true, hshift, if_neg hfirst, List.nil_append]
          exact ih (start + 1)

namespace Syntax.Tree

/-! ## Subtrees by position -/

/-- The subtree at a position, if there is one. -/
def at? (tree : Tree) : List Nat → Option Tree
  | [] => some tree
  | index :: rest => tree.children[index]?.bind fun child => child.at? rest

@[simp] theorem at?_cons (tree : Tree) (index : Nat) (rest : List Nat) :
    tree.at? (index :: rest) = tree.children[index]?.bind fun child => child.at? rest := rfl

theorem at?_append (tree : Tree) (position rest : List Nat) :
    tree.at? (position ++ rest) = (tree.at? position).bind fun below => below.at? rest := by
  induction position generalizing tree with
  | nil => rfl
  | cons index position ih =>
      rw [List.cons_append, at?_cons, at?_cons]
      cases tree.children[index]? with
      | none => rfl
      | some child => exact ih child

/-- One step further down. -/
theorem at?_append_singleton_eq_some_iff {tree child : Tree} {position : List Nat} {index : Nat} :
    tree.at? (position ++ [index]) = some child ↔
      ∃ parent, tree.at? position = some parent ∧ parent.children[index]? = some child := by
  have hlast : ∀ parent : Tree, parent.at? [index] = parent.children[index]? := by
    intro parent
    rw [at?_cons]
    cases parent.children[index]? <;> rfl
  simp only [at?_append, Option.bind_eq_some_iff, hlast]

/-! ## Pre-order -/

mutual

/-- The positions in a tree, in pre-order. -/
def positions : Tree → List (List Nat)
  | node _ children => [] :: positionsBelow 0 children

/-- The positions in some trees, the first of which has the given index. -/
def positionsBelow (index : Nat) : List Tree → List (List Nat)
  | [] => []
  | tree :: rest => tree.positions.map (index :: ·) ++ positionsBelow (index + 1) rest

end

theorem positionsBelow_eq (index : Nat) (trees : List Tree) :
    positionsBelow index trees =
      (trees.zipIdx index).flatMap fun entry => entry.1.positions.map (entry.2 :: ·) := by
  induction trees generalizing index with
  | nil => rfl
  | cons tree trees ih => rw [positionsBelow, ih, List.zipIdx_cons, List.flatMap_cons]

theorem positions_eq (tree : Tree) :
    tree.positions = [] :: tree.children.zipIdx.flatMap fun entry =>
      entry.1.positions.map (entry.2 :: ·) := by
  cases tree with
  | node label children => rw [positions, positionsBelow_eq]; rfl

/-- Positions one by one: the root, then the positions in each child. -/
theorem filterMap_positions (tree : Tree) (select : List Nat → Option β) :
    tree.positions.filterMap select = (select []).toList ++
      tree.children.zipIdx.flatMap fun entry =>
        entry.1.positions.filterMap fun rest => select (entry.2 :: rest) := by
  have hhead : ∀ rest, List.filterMap select ([] :: rest) =
      (select []).toList ++ rest.filterMap select := by
    intro rest
    rw [List.filterMap_cons]
    cases select [] <;> rfl
  rw [positions_eq, hhead, List.filterMap_flatMap]
  simp only [List.filterMap_map, Function.comp_def]

/-- **The positions of a tree are those of its subtrees.** -/
theorem mem_positions_iff {tree : Tree} {position : List Nat} :
    position ∈ tree.positions ↔ ∃ below, tree.at? position = some below := by
  induction position generalizing tree with
  | nil =>
      rw [positions_eq]
      exact iff_of_true List.mem_cons_self ⟨tree, rfl⟩
  | cons index rest ih =>
      rw [positions_eq, at?_cons]
      constructor
      · intro hmem
        have hbelow := List.mem_of_ne_of_mem (List.cons_ne_nil index rest) hmem
        obtain ⟨entry, hentry, hmem⟩ := List.mem_flatMap.mp hbelow
        obtain ⟨found, hfound, heq⟩ := List.mem_map.mp hmem
        obtain ⟨rfl, rfl⟩ := List.cons.inj heq
        obtain ⟨below, hbelow⟩ := ih.mp hfound
        rw [List.mem_zipIdx_iff_getElem?.mp hentry]
        exact ⟨below, hbelow⟩
      · rintro ⟨below, hbelow⟩
        obtain ⟨child, hchild, hbelow⟩ := Option.bind_eq_some_iff.mp hbelow
        refine List.mem_cons_of_mem _ (List.mem_flatMap.mpr ⟨(child, index), ?_, ?_⟩)
        · exact List.mem_zipIdx_iff_getElem?.mpr hchild
        · exact List.mem_map_of_mem (ih.mpr ⟨below, hbelow⟩)

theorem exists_of_mem_positionsBelow {index : Nat} {trees : List Tree} {position : List Nat}
    (hposition : position ∈ positionsBelow index trees) :
    ∃ first rest, position = first :: rest ∧ index ≤ first := by
  rw [positionsBelow_eq] at hposition
  obtain ⟨entry, hentry, hposition⟩ := List.mem_flatMap.mp hposition
  obtain ⟨rest, -, rfl⟩ := List.mem_map.mp hposition
  exact ⟨entry.2, rest, rfl, List.le_snd_of_mem_zipIdx hentry⟩

mutual

/-- **The positions of a tree are sorted**: a position comes before those below it, and before those
in later children. -/
theorem pairwise_positions : ∀ tree : Tree, tree.positions.Pairwise (· < ·)
  | node label children => by
      rw [positions]
      refine .cons ?_ (pairwise_positionsBelow 0 children)
      intro position hposition
      obtain ⟨first, rest, rfl, -⟩ := exists_of_mem_positionsBelow hposition
      exact List.nil_lt_cons first rest

theorem pairwise_positionsBelow (index : Nat) :
    ∀ trees, (positionsBelow index trees).Pairwise (· < ·)
  | [] => .nil
  | tree :: trees => by
      rw [positionsBelow, List.pairwise_append, List.pairwise_map]
      refine ⟨?_, pairwise_positionsBelow (index + 1) trees, ?_⟩
      · refine (pairwise_positions tree).imp ?_
        intro position later hlt
        exact List.cons_lt_cons_iff.mpr (.inr ⟨rfl, hlt⟩)
      · intro position hposition later hlater
        obtain ⟨rest, -, rfl⟩ := List.mem_map.mp hposition
        obtain ⟨first, others, rfl, hfirst⟩ := exists_of_mem_positionsBelow hlater
        exact List.cons_lt_cons_iff.mpr (.inl hfirst)

end

/-- What is found first among the positions of a tree is what is found at the least of them. -/
theorem head?_filterMap_positions {tree : Tree} {select : List Nat → Option β} {found : β}
    (hselect : ∀ position item, select position = some item → position ∈ tree.positions) :
    (tree.positions.filterMap select).head? = some found ↔
      ∃ position, select position = some found ∧ ∀ other < position, select other = none := by
  have hsorted := tree.pairwise_positions
  rw [List.head?_filterMap, List.findSome?_eq_some_iff]
  constructor
  · rintro ⟨before, position, after, hsplit, hfound, hbefore⟩
    refine ⟨position, hfound, fun other hlt => ?_⟩
    rw [Option.eq_none_iff_forall_ne_some]
    intro item hitem
    have hother := hselect other item hitem
    rw [hsplit] at hsorted hother
    obtain ⟨-, hafter, -⟩ := List.pairwise_append.mp hsorted
    -- It stands before the one that was found, and the list is sorted.
    rcases List.mem_append.mp hother with hother | hother
    · rw [hbefore other hother] at hitem
      cases hitem
    rcases List.mem_cons.mp hother with rfl | hother
    · exact List.lt_irrefl _ hlt
    · exact List.lt_asymm hlt ((List.pairwise_cons.mp hafter).1 other hother)
  · rintro ⟨position, hfound, hfirst⟩
    obtain ⟨before, after, hsplit⟩ := List.append_of_mem (hselect position found hfound)
    refine ⟨before, position, after, hsplit, hfound, fun other hother => hfirst other ?_⟩
    rw [hsplit] at hsorted
    exact (List.pairwise_append.mp hsorted).2.2 other hother position List.mem_cons_self

end Syntax.Tree
end TypeAtlas
