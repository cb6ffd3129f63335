import Mathlib.Data.List.Nodup
import TypeAtlas.Language

/-!
# Languages and their files

No path has extensions of two languages: of two endings of one path one is an ending of the other,
and no extension of one language ends in one of another.  So the order in which languages are tried
does not matter, and which language a file has depends on the admitted languages only as far as its
language may not be among them (`dispatch_some_eq`).
-/

namespace TypeAtlas

theorem Text.endsWith_iff {text ending : String} :
    endsWith text ending = true ↔ ending.toList <:+ text.toList := by
  rw [endsWith]
  exact List.isSuffixOf_iff_suffix

/-- If only one item is suitable, it does not matter where in the list it is. -/
theorem find?_eq_some_iff_of_unique {items : List α} {suits : α → Bool}
    (hunique : ∀ item ∈ items, ∀ other ∈ items, suits item → suits other → item = other) {item : α} :
    items.find? suits = some item ↔ item ∈ items ∧ suits item = true := by
  constructor
  · intro hfound
    exact ⟨List.mem_of_find?_eq_some hfound, List.find?_some hfound⟩
  · rintro ⟨hitem, hsuits⟩
    cases hfound : items.find? suits with
    | none => exact absurd hsuits (List.find?_eq_none.mp hfound item hitem)
    | some first =>
        have hfirst := List.mem_of_find?_eq_some hfound
        rw [hunique first hfirst item hitem (List.find?_some hfound) hsuits]

namespace Language

variable {language other : Language} {languages : List Language} {path : String}

/-! ## The table -/

theorem eq_of_name_eq (hlanguage : language ∈ table) (hother : other ∈ table)
    (hname : language.name = other.name) : language = other := by
  have hnames : (table.map name).Nodup := by decide
  exact List.inj_on_of_nodup_map hnames hlanguage hother hname

/-- No extension of a language ends in an extension of another one. -/
theorem name_eq_of_suffix : ∀ language ∈ table, ∀ other ∈ table,
    ∀ extension ∈ language.extensions, ∀ ending ∈ other.extensions,
      ending.toList <:+ extension.toList → language.name = other.name := by
  decide

/-- **No path has extensions of two languages.** -/
theorem covers_unique (hlanguage : language ∈ table) (hother : other ∈ table)
    (hcovers : language.covers path = true) (hcoversOther : other.covers path = true) :
    language = other := by
  obtain ⟨extension, hextension, hends⟩ := List.any_eq_true.mp hcovers
  obtain ⟨ending, hending, hendsOther⟩ := List.any_eq_true.mp hcoversOther
  rw [Text.endsWith_iff] at hends hendsOther
  apply eq_of_name_eq hlanguage hother
  rcases List.suffix_or_suffix_of_suffix hends hendsOther with hsuffix | hsuffix
  · exact (name_eq_of_suffix other hother language hlanguage ending hending extension hextension
      hsuffix).symm
  · exact name_eq_of_suffix language hlanguage other hother extension hextension ending hending
      hsuffix

/-! ## The language of a path -/

theorem dispatch_some_eq_some_iff (hlanguages : languages ⊆ table) :
    dispatch path (some languages) = some language ↔
      language ∈ languages ∧ language.covers path = true := by
  apply find?_eq_some_iff_of_unique
  intro language hlanguage other hother
  exact covers_unique (hlanguages hlanguage) (hlanguages hother)

theorem dispatch_none_eq_some_iff :
    dispatch path none = some language ↔ language ∈ table ∧ language.covers path = true :=
  dispatch_some_eq_some_iff (List.Subset.refl table)

/-- Whether the language of a path is one of some languages. -/
def admits (languages : List Language) (path : String) : Bool :=
  (dispatch path none).any fun language => (languages.map name).contains language.name

theorem admits_iff (hlanguages : languages ⊆ table) :
    admits languages path = true ↔ ∃ language ∈ languages, dispatch path none = some language := by
  rw [admits, Option.any_eq_true]
  constructor
  · rintro ⟨language, hlanguage, hname⟩
    rw [List.contains_iff_mem, List.mem_map] at hname
    obtain ⟨other, hother, hname⟩ := hname
    have htable := (dispatch_none_eq_some_iff.mp hlanguage).1
    obtain rfl := eq_of_name_eq (hlanguages hother) htable hname
    exact ⟨other, hother, hlanguage⟩
  · rintro ⟨language, hlanguage, hdispatch⟩
    refine ⟨language, hdispatch, ?_⟩
    rw [List.contains_iff_mem]
    exact List.mem_map_of_mem hlanguage

/-- **Leaving languages out does not give a path another language.** -/
theorem dispatch_some_eq (hlanguages : languages ⊆ table) :
    dispatch path (some languages) = if admits languages path then dispatch path none else none := by
  apply Option.ext
  intro language
  rw [dispatch_some_eq_some_iff hlanguages]
  split
  case isTrue hadmits =>
    obtain ⟨own, hown, hdispatch⟩ := (admits_iff hlanguages).mp hadmits
    rw [hdispatch, Option.some_inj]
    have hcovers := (dispatch_none_eq_some_iff.mp hdispatch).2
    constructor
    · rintro ⟨hlanguage, hcoversToo⟩
      exact covers_unique (hlanguages hown) (hlanguages hlanguage) hcovers hcoversToo
    · rintro rfl
      exact ⟨hown, hcovers⟩
  case isFalse hadmits =>
    constructor
    · rintro ⟨hlanguage, hcovers⟩
      have hdispatch := dispatch_none_eq_some_iff.mpr ⟨hlanguages hlanguage, hcovers⟩
      exact absurd ((admits_iff hlanguages).mpr ⟨language, hlanguage, hdispatch⟩) hadmits
    · exact nofun

/-! ## Filters -/

/-- Filters only ever ask for languages of the table. -/
theorem subset_table_of_resolve {filters : Option (List String)}
    (hlanguages : resolve filters = .ok (some languages)) : languages ⊆ table := by
  cases filters with
  | none => cases hlanguages
  | some filters =>
      cases hwanted : wanted filters with
      | error failure =>
          rw [resolve, hwanted] at hlanguages
          cases hlanguages
      | ok names =>
          rw [resolve, hwanted] at hlanguages
          have hnames : (if names.isEmpty then none
              else some (table.filter fun language => names.contains language.name)) =
                some languages := Except.ok.inj hlanguages
          split at hnames
          · cases hnames
          · rw [← Option.some.inj hnames]
            exact List.filter_sublist.subset

end Language
end TypeAtlas
