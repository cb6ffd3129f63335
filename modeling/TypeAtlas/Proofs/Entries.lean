import TypeAtlas.Entries

/-!
# The first item of each key

`firsts` goes through a list with the keys that it has seen.  `firstOccurrences` says without going
through anything which items these are: those at a position before which their key does not occur.
The two are equal (`firsts_eq_firstOccurrences`).

The other lemmas are what tables are reasoned with: which keys `firsts` has, that it has each of them
once, that it leaves distinct keys as they are, and that it may be taken before or after a filter by
keys.  Each is proved for `firstsUnseen` with any keys seen, by induction on the list.
-/

namespace TypeAtlas

variable [DecidableEq κ] (key : α → κ)

/-- The items at a position before which their key does not occur. -/
def firstOccurrences (items : List α) : List α :=
  (items.zipIdx.filter fun (item, position) => key item ∉ (items.take position).map key).map Prod.fst

/-! ## Keys -/

theorem mem_map_firstsUnseen {seen : List κ} {items : List α} {k : κ} :
    k ∈ (firstsUnseen key seen items).map key ↔ k ∈ items.map key ∧ k ∉ seen := by
  induction items generalizing seen with
  | nil => simp [firstsUnseen]
  | cons item items ih =>
      rw [firstsUnseen, List.map_cons, List.mem_cons]
      split
      next hseen =>
        rw [ih]
        constructor
        · rintro ⟨hmem, hnew⟩
          exact ⟨.inr hmem, hnew⟩
        · rintro ⟨rfl | hmem, hnew⟩
          · exact absurd hseen hnew
          · exact ⟨hmem, hnew⟩
      next hnew =>
        rw [List.map_cons, List.mem_cons, ih, List.mem_cons, not_or]
        constructor
        · rintro (rfl | ⟨hmem, -, hother⟩)
          · exact ⟨.inl rfl, hnew⟩
          · exact ⟨.inr hmem, hother⟩
        · rintro ⟨hk, hother⟩
          by_cases hitem : k = key item
          · exact .inl hitem
          · exact .inr ⟨hk.resolve_left hitem, hitem, hother⟩

theorem mem_map_firsts {items : List α} {k : κ} :
    k ∈ (firsts key items).map key ↔ k ∈ items.map key := by
  rw [firsts, mem_map_firstsUnseen]
  exact and_iff_left List.not_mem_nil

theorem nodup_map_firstsUnseen (seen : List κ) (items : List α) :
    ((firstsUnseen key seen items).map key).Nodup := by
  induction items generalizing seen with
  | nil => exact List.nodup_nil
  | cons item items ih =>
      rw [firstsUnseen]
      split
      · exact ih seen
      · have hseen : key item ∉ (firstsUnseen key (key item :: seen) items).map key := by
          intro hmem
          exact ((mem_map_firstsUnseen key).mp hmem).2 (List.mem_cons_self ..)
        exact List.nodup_cons.mpr ⟨hseen, ih _⟩

theorem nodup_map_firsts (items : List α) : ((firsts key items).map key).Nodup :=
  nodup_map_firstsUnseen key [] items

theorem firstsUnseen_subset (seen : List κ) (items : List α) : firstsUnseen key seen items ⊆ items := by
  induction items generalizing seen with
  | nil => exact List.Subset.refl _
  | cons item items ih =>
      rw [firstsUnseen]
      split
      · exact List.subset_cons_of_subset item (ih seen)
      · exact List.cons_subset_cons item (ih _)

theorem firsts_subset (items : List α) : firsts key items ⊆ items :=
  firstsUnseen_subset key [] items

theorem mem_firsts {items : List κ} {k : κ} : k ∈ firsts id items ↔ k ∈ items := by
  have hmem : k ∈ (firsts id items).map id ↔ k ∈ items.map id := mem_map_firsts id
  rwa [List.map_id, List.map_id] at hmem

theorem nodup_firsts (items : List κ) : (firsts id items).Nodup := by
  have hnodup := nodup_map_firsts id items
  rwa [List.map_id] at hnodup

/-- The keys of the first items are the first keys. -/
theorem map_firstsUnseen (seen : List κ) (items : List α) :
    (firstsUnseen key seen items).map key = firstsUnseen id seen (items.map key) := by
  induction items generalizing seen with
  | nil => rfl
  | cons item items ih =>
      rw [List.map_cons, firstsUnseen, firstsUnseen, id]
      split
      · exact ih seen
      · rw [List.map_cons, ih]

theorem map_firsts (items : List α) : (firsts key items).map key = firsts id (items.map key) :=
  map_firstsUnseen key [] items

theorem firsts_eq_nil_iff {items : List α} : firsts key items = [] ↔ items = [] := by
  cases items <;> simp [firsts, firstsUnseen]

/-! ## One more item -/

theorem firstsUnseen_append_singleton (seen : List κ) (items : List α) (item : α) :
    firstsUnseen key seen (items ++ [item]) =
      if key item ∈ seen ∨ key item ∈ items.map key then firstsUnseen key seen items
      else firstsUnseen key seen items ++ [item] := by
  induction items generalizing seen with
  | nil => by_cases hseen : key item ∈ seen <;> simp [firstsUnseen, hseen]
  | cons first items ih =>
      rw [List.cons_append, firstsUnseen, firstsUnseen, ih, ih]
      by_cases hfirst : key first ∈ seen
      · -- The first item is dropped, and its key tells nothing that `seen` does not tell.
        have hkeys : key item ∈ seen ∨ key item ∈ items.map key ↔
            key item ∈ seen ∨ key item ∈ (first :: items).map key := by
          rw [List.map_cons, List.mem_cons]
          constructor
          · exact Or.imp_right .inr
          · rintro (hseen | heq | hmem)
            · exact .inl hseen
            · exact .inl (heq ▸ hfirst)
            · exact .inr hmem
        simp only [if_pos hfirst, hkeys]
      · have hkeys : key item ∈ key first :: seen ∨ key item ∈ items.map key ↔
            key item ∈ seen ∨ key item ∈ (first :: items).map key := by
          rw [List.map_cons, List.mem_cons, List.mem_cons, or_assoc, or_left_comm]
        simp only [if_neg hfirst, hkeys]
        split <;> rfl

/-- An item is put behind the others if its key is new. -/
theorem firsts_append_singleton (items : List α) (item : α) :
    firsts key (items ++ [item]) =
      if key item ∈ items.map key then firsts key items else firsts key items ++ [item] := by
  rw [firsts, firstsUnseen_append_singleton]
  simp only [List.not_mem_nil, false_or]
  rfl

/-! ## Distinct keys, and filters by keys -/

theorem firstsUnseen_of_nodup {seen : List κ} {items : List α} (hnodup : (items.map key).Nodup)
    (hseen : ∀ item ∈ items, key item ∉ seen) : firstsUnseen key seen items = items := by
  induction items generalizing seen with
  | nil => rfl
  | cons item items ih =>
      obtain ⟨hitem, hitems⟩ := List.nodup_cons.mp hnodup
      rw [firstsUnseen, if_neg (hseen item (List.mem_cons_self ..)), ih hitems]
      intro other hother hmem
      rcases List.mem_cons.mp hmem with heq | hmem
      · exact hitem (heq ▸ List.mem_map_of_mem hother)
      · exact hseen other (List.mem_cons_of_mem _ hother) hmem

theorem firsts_of_nodup {items : List α} (hnodup : (items.map key).Nodup) :
    firsts key items = items :=
  firstsUnseen_of_nodup key hnodup fun _ _ => List.not_mem_nil

/-- Keys that the filter drops may be seen or not. -/
theorem filter_firstsUnseen {admits : κ → Bool} {seen seen' : List κ} (items : List α)
    (hseen : ∀ k, admits k = true → (k ∈ seen ↔ k ∈ seen')) :
    (firstsUnseen key seen items).filter (fun item => admits (key item)) =
      firstsUnseen key seen' (items.filter fun item => admits (key item)) := by
  induction items generalizing seen seen' with
  | nil => rfl
  | cons item items ih =>
      rw [firstsUnseen, List.filter_cons]
      cases hadmits : admits (key item) with
      | true =>
          rw [if_pos rfl, firstsUnseen]
          by_cases hitem : key item ∈ seen
          · rw [if_pos hitem, if_pos ((hseen _ hadmits).mp hitem), ih hseen]
          · rw [if_neg hitem, if_neg fun hmem => hitem ((hseen _ hadmits).mpr hmem),
              List.filter_cons, if_pos hadmits, ih]
            intro k hk
            rw [List.mem_cons, List.mem_cons, hseen k hk]
      | false =>
          -- The item is dropped on the right, where its key is never seen.
          rw [if_neg Bool.false_ne_true]
          by_cases hitem : key item ∈ seen
          · rw [if_pos hitem, ih hseen]
          · rw [if_neg hitem, List.filter_cons_of_neg (by rw [hadmits]; exact Bool.false_ne_true), ih]
            intro k hk
            have hne : k ≠ key item := by
              rintro rfl
              exact absurd (hadmits.symm.trans hk) Bool.false_ne_true
            rw [List.mem_cons, or_iff_right hne, hseen k hk]

theorem filter_firsts (admits : κ → Bool) (items : List α) :
    (firsts key items).filter (fun item => admits (key item)) =
      firsts key (items.filter fun item => admits (key item)) :=
  filter_firstsUnseen key items fun _ _ => .rfl

/-! ## Positions -/

/-- What was gone through is given by `before`: its keys are those that were seen. -/
theorem firstsUnseen_eq_filter {seen : List κ} (before items : List α)
    (hseen : ∀ k, k ∈ seen ↔ k ∈ before.map key) :
    firstsUnseen key seen items =
      ((items.zipIdx before.length).filter fun (item, position) =>
        key item ∉ ((before ++ items).take position).map key).map Prod.fst := by
  induction items generalizing before seen with
  | nil => rfl
  | cons item items ih =>
      -- For what follows `item`, it is part of what was gone through.
      have hkeys : ∀ k, k ∈ (before ++ [item]).map key ↔ k = key item ∨ k ∈ seen := by
        intro k
        rw [hseen, List.map_append, List.mem_append, List.map_singleton, List.mem_singleton, or_comm]
      have hlength : (before ++ [item]).length = before.length + 1 := List.length_append
      have hlist : before ++ item :: items = (before ++ [item]) ++ items := by simp
      rw [firstsUnseen, List.zipIdx_cons, List.filter_cons]
      simp only [List.take_left, ← hseen]
      by_cases hitem : key item ∈ seen
      · have hseen' : ∀ k, k ∈ seen ↔ k ∈ (before ++ [item]).map key := by
          intro k
          rw [hkeys, or_iff_right_of_imp]
          rintro rfl
          exact hitem
        rw [if_pos hitem, ih (before ++ [item]) hseen', hlist, hlength, if_neg (by simpa using hitem)]
      · have hseen' : ∀ k, k ∈ key item :: seen ↔ k ∈ (before ++ [item]).map key := by
          intro k
          rw [hkeys, List.mem_cons]
        rw [if_neg hitem, ih (before ++ [item]) hseen', hlist, hlength, if_pos (by simpa using hitem)]
        rfl

theorem firsts_eq_firstOccurrences (items : List α) :
    firsts key items = firstOccurrences key items :=
  firstsUnseen_eq_filter key [] items fun _ => .rfl

end TypeAtlas
