/-!
# Tables in order of insertion

A table is a list of keys with their values.  `List.lookup` reads it; `putEntry` writes it, in the
place of an earlier entry of the key or at the end, so that each key keeps the place of its first
entry.  `firsts` keeps of any items those whose key did not occur before.
-/

namespace TypeAtlas

/-- The table with one value for the key: in the place of an earlier one, or at the end. -/
def putEntry [BEq κ] (entries : List (κ × α)) (key : κ) (value : α) : List (κ × α) :=
  match entries with
  | [] => [(key, value)]
  | (other, old) :: rest =>
    if other == key then (key, value) :: rest else (other, old) :: putEntry rest key value

theorem lookup_putEntry [BEq κ] [LawfulBEq κ] (entries : List (κ × α)) (key other : κ) (value : α) :
    (putEntry entries key value).lookup other =
      if other == key then some value else entries.lookup other := by
  induction entries with
  | nil => cases hother : other == key <;> simp [putEntry, List.lookup_cons, hother]
  | cons entry rest ih =>
    obtain ⟨first, old⟩ := entry
    by_cases hfirst : first = key
    · subst hfirst
      cases hother : other == first <;> simp [putEntry, List.lookup_cons, hother]
    · cases hother : other == first with
      | false => simp [putEntry, List.lookup_cons, hfirst, hother, ih]
      | true =>
        have hsame : other = first := eq_of_beq hother
        subst hsame
        simp [putEntry, hfirst]

/-- A key that has an entry keeps its place, and a new one comes last. -/
theorem map_fst_putEntry [BEq κ] [LawfulBEq κ] (entries : List (κ × α)) (key : κ) (value : α) :
    (putEntry entries key value).map Prod.fst =
      if (entries.map Prod.fst).contains key then entries.map Prod.fst
      else entries.map Prod.fst ++ [key] := by
  induction entries with
  | nil => rfl
  | cons entry rest ih =>
    obtain ⟨first, old⟩ := entry
    by_cases hfirst : first = key
    · subst hfirst
      simp [putEntry]
    · have hother : (first == key) = false := beq_false_of_ne hfirst
      have hother' : (key == first) = false := beq_false_of_ne (Ne.symm hfirst)
      simp only [putEntry, hother, Bool.false_eq_true, if_false, List.map_cons, ih,
        List.contains_cons, hother', Bool.false_or, List.cons_append]
      split <;> rfl

theorem putEntry_of_lookup [BEq κ] [LawfulBEq κ] {entries : List (κ × α)} {key : κ} {value : α}
    (hlookup : entries.lookup key = some value) : putEntry entries key value = entries := by
  induction entries with
  | nil => cases hlookup
  | cons entry rest ih =>
    obtain ⟨first, old⟩ := entry
    by_cases hfirst : first = key
    · subst hfirst
      obtain rfl : old = value := by simpa [List.lookup_cons] using hlookup
      simp [putEntry]
    · have hother : (first == key) = false := beq_false_of_ne hfirst
      have hother' : (key == first) = false := beq_false_of_ne (Ne.symm hfirst)
      rw [List.lookup_cons, hother'] at hlookup
      simp [putEntry, hother, ih hlookup]

theorem putEntry_putEntry [BEq κ] [LawfulBEq κ] (entries : List (κ × α)) (key : κ)
    (earlier value : α) :
    putEntry (putEntry entries key earlier) key value = putEntry entries key value := by
  induction entries with
  | nil => simp [putEntry]
  | cons entry rest ih =>
    obtain ⟨first, old⟩ := entry
    cases hfirst : first == key <;> simp [putEntry, hfirst, ih]

theorem mem_of_lookup [BEq κ] [LawfulBEq κ] {entries : List (κ × α)} {key : κ} {value : α}
    (hlookup : entries.lookup key = some value) : (key, value) ∈ entries := by
  obtain ⟨before, after, rfl, -⟩ := List.lookup_eq_some_iff.mp hlookup
  exact List.mem_append_right before List.mem_cons_self

/-- The items whose key is not among `seen` and does not occur earlier in the list. -/
def firstsUnseen [DecidableEq κ] (key : α → κ) (seen : List κ) : List α → List α
  | [] => []
  | item :: items =>
    if key item ∈ seen then firstsUnseen key seen items
    else item :: firstsUnseen key (key item :: seen) items

/-- The first item of each key, in order. -/
def firsts [DecidableEq κ] (key : α → κ) (items : List α) : List α :=
  firstsUnseen key [] items

end TypeAtlas
