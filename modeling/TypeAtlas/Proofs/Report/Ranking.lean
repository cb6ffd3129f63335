import Mathlib.Data.List.Count
import Mathlib.Data.List.Perm.Basic
import TypeAtlas.Report.Statistics

/-!
# Rankings and their first items

A ranking of some items has them in decreasing order of a score, and those of one score in the order
that they had.  There is exactly one, `IsRanking.eq`, and `ranked` gives it.

The reports cut a ranking off and drop what scores too little from what is left.  As whatever is in
front of an item scores at least as high, they could as well drop first and cut then
(`filter_take_ranked`).  So an item that scores enough is missing only if the list is full, and all
that is on the list scores at least as high (`IsTop`).
-/

namespace TypeAtlas

/-! ## Rankings -/

/-- Items in decreasing order of a score, those of each score in the order that they had. -/
structure IsRanking (score : α → Nat) (items ranking : List α) : Prop where
  decreasing : ranking.Pairwise fun item other => score other ≤ score item
  ties : ∀ value, ranking.filter (fun item => score item = value) =
    items.filter fun item => score item = value

section

variable (score : α → Nat) (items : List α)

theorem score_le_trans (first second third : α) (hfirst : decide (score second ≤ score first) = true)
    (hsecond : decide (score third ≤ score second) = true) :
    decide (score third ≤ score first) = true := by
  rw [decide_eq_true_eq] at hfirst hsecond ⊢
  exact Nat.le_trans hsecond hfirst

theorem score_le_total (first second : α) :
    (decide (score second ≤ score first) || decide (score first ≤ score second)) = true := by
  simpa using Nat.le_total (score second) (score first)

theorem perm_ranked : (ranked score items).Perm items := List.mergeSort_perm items _

theorem pairwise_ranked :
    (ranked score items).Pairwise fun item other => score other ≤ score item := by
  have hsorted := List.pairwise_mergeSort (score_le_trans score) (score_le_total score) items
  exact hsorted.imp of_decide_eq_true

/-- The items of one score are in order as they are, so sorting does not rearrange them. -/
theorem filter_ranked (value : Nat) :
    (ranked score items).filter (fun item => score item = value) =
      items.filter fun item => score item = value := by
  have hordered : (items.filter fun item => score item = value).Pairwise fun item other =>
      decide (score other ≤ score item) = true := by
    apply List.pairwise_of_forall_mem_list
    intro item hitem other hother
    have hscore : score item = value := by simpa using (List.mem_filter.mp hitem).2
    have hscore' : score other = value := by simpa using (List.mem_filter.mp hother).2
    exact decide_eq_true (Nat.le_of_eq (hscore'.trans hscore.symm))
  have hsublist : (items.filter fun item => score item = value).Sublist (ranked score items) :=
    List.sublist_mergeSort (score_le_trans score) (score_le_total score) hordered
      List.filter_sublist
  have hfiltered := hsublist.filter fun item => decide (score item = value)
  rw [List.filter_filter] at hfiltered
  simp only [Bool.and_self] at hfiltered
  have hlength := ((perm_ranked score items).filter fun item => decide (score item = value)).length_eq
  exact (hfiltered.eq_of_length hlength.symm).symm

/-- **Sorting by decreasing scores ranks.** -/
theorem isRanking_ranked : IsRanking score items (ranked score items) where
  decreasing := pairwise_ranked score items
  ties := filter_ranked score items

end

variable {score : α → Nat} {items ranking other listed : List α} {limit : Nat}

theorem mem_of_filter_eq (hties : ∀ value, ranking.filter (fun item => score item = value) =
    other.filter fun item => score item = value) {item : α} (hitem : item ∈ ranking) :
    item ∈ other := by
  have hfiltered : item ∈ ranking.filter fun member => score member = score item :=
    List.mem_filter.mpr ⟨hitem, decide_eq_true rfl⟩
  rw [hties] at hfiltered
  exact List.mem_of_mem_filter hfiltered

/-- Two lists in decreasing order are equal if they have the same items of each score. -/
theorem eq_of_filter_eq (hranking : ranking.Pairwise fun item other => score other ≤ score item)
    (hother : other.Pairwise fun item other => score other ≤ score item)
    (hties : ∀ value, ranking.filter (fun item => score item = value) =
      other.filter fun item => score item = value) : ranking = other := by
  induction ranking generalizing other with
  | nil =>
      symm
      apply List.eq_nil_iff_forall_not_mem.mpr
      intro item hitem
      exact List.not_mem_nil (mem_of_filter_eq (fun value => (hties value).symm) hitem)
  | cons first rest ih =>
      cases other with
      | nil => exact absurd (mem_of_filter_eq hties List.mem_cons_self) List.not_mem_nil
      | cons head tail =>
          obtain ⟨hfirst, hrest⟩ := List.pairwise_cons.mp hranking
          obtain ⟨hhead, htail⟩ := List.pairwise_cons.mp hother
          -- Each of the two items in front is on the other list, where nothing scores higher.
          have hle : score first ≤ score head := by
            rcases List.mem_cons.mp (mem_of_filter_eq hties List.mem_cons_self) with hsame | hmem
            · exact hsame ▸ Nat.le_refl _
            · exact hhead first hmem
          have hge : score head ≤ score first := by
            have hback := fun value => (hties value).symm
            rcases List.mem_cons.mp (mem_of_filter_eq hback List.mem_cons_self) with hsame | hmem
            · exact hsame ▸ Nat.le_refl _
            · exact hfirst head hmem
          have hscore : score head = score first := Nat.le_antisymm hge hle
          have hfront := hties (score first)
          rw [List.filter_cons_of_pos (by simp), List.filter_cons_of_pos (by simpa using hscore),
            List.cons.injEq] at hfront
          obtain ⟨rfl, -⟩ := hfront
          congr 1
          apply ih hrest htail
          intro value
          have hvalue := hties value
          rw [List.filter_cons, List.filter_cons] at hvalue
          split at hvalue
          · exact (List.cons.inj hvalue).2
          · exact hvalue

namespace IsRanking

/-- **There is one ranking only.** -/
theorem eq (hranking : IsRanking score items ranking) (hother : IsRanking score items other) :
    ranking = other :=
  eq_of_filter_eq hranking.decreasing hother.decreasing fun value =>
    (hranking.ties value).trans (hother.ties value).symm

theorem mem_iff (hranking : IsRanking score items ranking) {item : α} :
    item ∈ ranking ↔ item ∈ items :=
  ⟨mem_of_filter_eq hranking.ties, mem_of_filter_eq fun value => (hranking.ties value).symm⟩

theorem filter (hranking : IsRanking score items ranking) (suits : α → Bool) :
    IsRanking score (items.filter suits) (ranking.filter suits) where
  decreasing := hranking.decreasing.filter suits
  ties value := by
    rw [List.filter_comm, hranking.ties, List.filter_comm]

end IsRanking

/-! ## The first items -/

/-- In a decreasing list those that score more than a bound come first. -/
theorem filter_take_of_decreasing
    (hranking : ranking.Pairwise fun item other => score other ≤ score item) (bound limit : Nat) :
    (ranking.take limit).filter (fun item => bound < score item) =
      (ranking.filter fun item => bound < score item).take limit := by
  induction ranking generalizing limit with
  | nil => simp
  | cons first rest ih =>
      obtain ⟨hfirst, hrest⟩ := List.pairwise_cons.mp hranking
      cases limit with
      | zero => simp
      | succ limit =>
          rw [List.take_succ_cons]
          by_cases hbound : bound < score first
          · rw [List.filter_cons_of_pos (by simpa using hbound),
              List.filter_cons_of_pos (by simpa using hbound), List.take_succ_cons, ih hrest]
          · -- Nothing behind it scores more, be it cut off or not.
            have hnone : (first :: rest).filter (fun item => bound < score item) = [] := by
              rw [List.filter_eq_nil_iff]
              intro item hitem
              have hitem : score item ≤ score first := by
                rcases List.mem_cons.mp hitem with rfl | hitem
                · exact Nat.le_refl _
                · exact hfirst item hitem
              simpa using Nat.le_trans hitem (Nat.le_of_not_lt hbound)
            rw [hnone, List.take_nil]
            have hsublist : (first :: rest.take limit).Sublist (first :: rest) :=
              (List.take_sublist limit rest).cons_cons first
            exact List.sublist_nil.mp (hnone ▸ hsublist.filter _)

/-- Cutting a ranking off and dropping what scores too little is dropping first and cutting then. -/
theorem filter_take_ranked (score : α → Nat) (bound limit : Nat) (items : List α) :
    ((ranked score items).take limit).filter (fun item => bound < score item) =
      (ranked score (items.filter fun item => bound < score item)).take limit := by
  rw [filter_take_of_decreasing (pairwise_ranked score items)]
  congr 1
  exact ((isRanking_ranked score items).filter _).eq (isRanking_ranked score _)

/-- What a section shows of some items: the first of their ranking, up to a limit. -/
structure IsTop (score : α → Nat) (limit : Nat) (items listed : List α) : Prop where
  /-- The items come in decreasing order of the score, ties in the order that they had. -/
  eq_take : ∃ ranking, IsRanking score items ranking ∧ listed = ranking.take limit
  /-- An item is missing only if there is no room, and nothing that is listed scores less. -/
  full_of_missing : ∀ item ∈ items, item ∉ listed →
    listed.length = limit ∧ ∀ other ∈ listed, score item ≤ score other

theorem IsRanking.isTop_take (hranking : IsRanking score items ranking) (limit : Nat) :
    IsTop score limit items (ranking.take limit) where
  eq_take := ⟨ranking, hranking, rfl⟩
  full_of_missing item hitem hmissing := by
    have hmem : item ∈ ranking.take limit ++ ranking.drop limit := by
      rw [List.take_append_drop]
      exact hranking.mem_iff.mpr hitem
    have hdrop : item ∈ ranking.drop limit := (List.mem_append.mp hmem).resolve_left hmissing
    constructor
    · have hlength := List.length_pos_of_mem hdrop
      rw [List.length_drop] at hlength
      rw [List.length_take]
      omega
    · intro other hother
      have hsplit := hranking.decreasing
      rw [← List.take_append_drop limit ranking] at hsplit
      exact (List.pairwise_append.mp hsplit).2.2 other hother item hdrop

theorem isTop_take_ranked (score : α → Nat) (limit : Nat) (items : List α) :
    IsTop score limit items ((ranked score items).take limit) :=
  (isRanking_ranked score items).isTop_take limit

/-- **What is left of the first items of a ranking are the first items of what should be left.** -/
theorem isTop_filter_take_ranked (score : α → Nat) (bound limit : Nat) (items : List α) :
    IsTop score limit (items.filter fun item => bound < score item)
      (((ranked score items).take limit).filter fun item => bound < score item) := by
  rw [filter_take_ranked]
  exact isTop_take_ranked score limit _

end TypeAtlas
