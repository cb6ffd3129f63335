/-!
# Results that may be faults

A list of results is a list of values if none of them is a fault, and then it is read off from the
values (`mapM_eq_ok_iff`); otherwise it has one of their faults.
-/

namespace TypeAtlas

/-! ## One result -/

theorem map_eq_ok_iff {outcome : Except ε α} {step : α → β} {value : β} :
    outcome.map step = .ok value ↔ ∃ first, outcome = .ok first ∧ step first = value := by
  cases outcome <;> simp [Except.map]

theorem mapError_eq_ok_iff {outcome : Except ε α} {wrap : ε → δ} {value : α} :
    outcome.mapError wrap = .ok value ↔ outcome = .ok value := by
  cases outcome with
  | error fault => exact ⟨nofun, nofun⟩
  | ok item => exact ⟨fun hitem => congrArg _ (Except.ok.inj hitem),
      fun hitem => congrArg _ (Except.ok.inj hitem)⟩

theorem eq_ok_of_toOption {outcome : Except ε α} {value : α}
    (hvalue : outcome.toOption = some value) : outcome = .ok value := by
  cases outcome with
  | error fault => cases hvalue
  | ok item => rw [Option.some.inj hvalue]

/-- What is known of a result is known of what is there. -/
theorem exists_ok_of_map_toOption {found : Except ε α} {seen : α → β} {value : β}
    (hseen : found.toOption.map seen = some value) :
    ∃ item, found = .ok item ∧ seen item = value := by
  cases found with
  | error fault => cases hseen
  | ok item => exact ⟨item, rfl, Option.some.inj hseen⟩

/-! ## Lists of results -/

theorem mapM_id_ok (values : List α) :
    (values.map Except.ok : List (Except ε α)).mapM id = .ok values := by
  induction values with
  | nil => rfl
  | cons value values ih =>
      rw [List.map_cons, List.mapM_cons, ih]
      rfl

theorem eq_map_ok_of_mapM_id {results : List (Except ε α)} {values : List α}
    (hvalues : results.mapM id = .ok values) : results = values.map .ok := by
  induction results generalizing values with
  | nil =>
      obtain rfl : [] = values := Except.ok.inj hvalues
      rfl
  | cons result results ih =>
      rw [List.mapM_cons] at hvalues
      cases result with
      | error fault => cases hvalues
      | ok value =>
          cases hrest : results.mapM id with
          | error fault =>
              rw [hrest] at hvalues
              cases hvalues
          | ok rest =>
              rw [hrest] at hvalues
              obtain rfl : value :: rest = values := Except.ok.inj hvalues
              rw [List.map_cons, ih hrest]

theorem mapM_eq_ok_iff {step : α → Except ε β} {items : List α} {values : List β} :
    items.mapM step = .ok values ↔ items.map step = values.map .ok := by
  have hid : items.mapM step = (items.map step).mapM id := by
    rw [List.mapM_map]
    rfl
  rw [hid]
  exact ⟨eq_map_ok_of_mapM_id, fun hvalues => hvalues ▸ mapM_id_ok values⟩

theorem mapM_mapError (step : α → Except ε β) (wrap : ε → δ) (items : List α) :
    (items.mapM fun item => (step item).mapError wrap) = (items.mapM step).mapError wrap := by
  induction items with
  | nil => rfl
  | cons item items ih =>
      rw [List.mapM_cons, List.mapM_cons, ih]
      cases step item with
      | error fault => rfl
      | ok value => cases items.mapM step <;> rfl

theorem mem_of_mapM_id_error {results : List (Except ε α)} {fault : ε}
    (hfault : results.mapM id = .error fault) : .error fault ∈ results := by
  induction results with
  | nil => cases hfault
  | cons result results ih =>
      rw [List.mapM_cons] at hfault
      cases result with
      | error first =>
          obtain rfl : first = fault := Except.error.inj hfault
          exact List.mem_cons_self ..
      | ok value =>
          cases hrest : results.mapM id with
          | error other =>
              rw [hrest] at hfault
              obtain rfl : other = fault := Except.error.inj hfault
              exact List.mem_cons_of_mem _ (ih hrest)
          | ok rest =>
              rw [hrest] at hfault
              cases hfault

theorem exists_mem_of_mapM {step : α → Except ε β} {items : List α} {values : List β} {value : β}
    (hvalues : items.mapM step = .ok values) (hvalue : value ∈ values) :
    ∃ item ∈ items, step item = .ok value := by
  have hmem : .ok value ∈ items.map step := by
    rw [mapM_eq_ok_iff.mp hvalues]
    exact List.mem_map_of_mem hvalue
  exact List.mem_map.mp hmem

/-- What is known of each value of a traversal from its item is known of all of them. -/
theorem map_eq_map_of_mapM {step : α → Except ε β} {items : List α} {values : List β}
    {mark : β → γ} {sign : α → γ} (hvalues : items.mapM step = .ok values)
    (hmark : ∀ item ∈ items, ∀ value, step item = .ok value → mark value = sign item) :
    values.map mark = items.map sign := by
  rw [mapM_eq_ok_iff] at hvalues
  induction items generalizing values with
  | nil =>
      obtain rfl := List.map_eq_nil_iff.mp hvalues.symm
      rfl
  | cons item items ih =>
      obtain ⟨value, rest, rfl, hvalue, hrest⟩ := List.map_eq_cons_iff.mp hvalues.symm
      obtain ⟨hfirst, hlater⟩ := List.forall_mem_cons.mp hmark
      rw [List.map_cons, List.map_cons, hfirst value hvalue.symm, ih hrest.symm hlater]

end TypeAtlas
