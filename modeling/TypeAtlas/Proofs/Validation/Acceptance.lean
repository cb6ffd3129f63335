import Mathlib.Data.List.Forall2
import TypeAtlas.Proofs.Entries
import TypeAtlas.Proofs.Results
import TypeAtlas.Validation.Field

/-!
# What checks accept

Each check is given by what it accepts, and each way of putting checks together by when it accepts.
The keys of an object are where this takes some care: a field may have two names, the first one that
the object has counts, and the other one is an extra key then.  `Field.Has` and `Field.Lacks` say it
without an order: the object has a field under exactly one of its names, or under none.  By
`extras_eq_ok_iff` an object without extra keys has or lacks every field, and has no keys but their
names, so checks of objects can be described by these two (`object_fields_eq_ok_iff`).
-/

namespace TypeAtlas

namespace Checked

theorem under_eq_ok_iff {key : String} {outcome : Checked α} {value : α} :
    under key outcome = .ok value ↔ outcome = .ok value := by
  cases outcome <;> simp [under, Except.mapError]

theorem titled_eq_ok_iff {title : String} {outcome : Checked α} {value : α} :
    titled title outcome = .ok value ↔ outcome = .ok value := by
  cases outcome <;> simp [titled, Except.mapError]

theorem both_eq_ok_iff {first : Checked α} {second : Checked β} {value : α} {other : β} :
    both first second = .ok (value, other) ↔ first = .ok value ∧ second = .ok other := by
  cases first <;> cases second <;> simp [both]

theorem eachFrom_eq_ok_iff {check : Json → Checked α} {start : Nat} {items : List Json}
    {values : List α} :
    eachFrom check start items = .ok values ↔
      List.Forall₂ (fun item value => check item = .ok value) items values := by
  induction items generalizing start values with
  | nil =>
      rw [List.forall₂_nil_left_iff, eachFrom, Except.ok.injEq]
      exact eq_comm
  | cons item items ih =>
      rw [List.forall₂_cons_left_iff, eachFrom, map_eq_ok_iff]
      simp only [Prod.exists, both_eq_ok_iff, under_eq_ok_iff, ih]
      constructor
      · rintro ⟨value, rest, ⟨hvalue, hrest⟩, rfl⟩
        exact ⟨value, rest, hvalue, hrest, rfl⟩
      · rintro ⟨value, rest, hvalue, hrest, rfl⟩
        exact ⟨value, rest, ⟨hvalue, hrest⟩, rfl⟩

end Checked

namespace Field

variable {fields : List (String × Json)} {names : List String} {known : List (List String)}
  {input : Json} {check : Json → Checked α} {value : α}

/-! ## Values -/

theorem text_eq_ok_iff {value : String} : text input = .ok value ↔ input = .str value := by
  cases input <;> simp [text, Checked.fail]

theorem nonempty_eq_ok_iff {value : NonemptyText} :
    nonempty input = .ok value ↔ input = .str value.text := by
  cases input with
  | str text =>
      rw [nonempty, Json.str.injEq]
      split
      next hne =>
        rw [Except.ok.injEq]
        exact ⟨fun heq => heq ▸ rfl, fun heq => by subst heq; rfl⟩
      next hempty => exact iff_of_false nofun fun heq => hempty (heq ▸ value.ne_empty)
  | _ => exact iff_of_false nofun nofun

theorem textOrNull_eq_ok_iff {value : Option String} :
    textOrNull input = .ok value ↔
      (value = none ∧ input = .null) ∨ ∃ text, value = some text ∧ input = .str text := by
  cases input <;> simp [textOrNull, Checked.fail, eq_comm]

theorem named_eq_ok_iff {problem : Problem} {ofName? : String → Option α} :
    named problem ofName? input = .ok value ↔
      ∃ name, input = .str name ∧ ofName? name = some value := by
  cases input with
  | str name =>
      simp only [named, Json.str.injEq, exists_eq_left']
      cases ofName? name <;> simp [Checked.fail]
  | _ => exact iff_of_false nofun nofun

theorem positive_eq_ok_iff {value : Positive} :
    positive input = .ok value ↔ integer input = .ok (value.count : Int) := by
  have hpos := value.pos
  rw [positive]
  split
  next issues hissues => rw [hissues]; exact iff_of_false nofun nofun
  next number hnumber =>
    rw [hnumber, Except.ok.injEq]
    split
    next hcount =>
      rw [Except.ok.injEq]
      constructor
      · rintro rfl
        exact (Int.toNat_of_nonneg (by omega)).symm
      · rintro rfl
        rfl
    next hcount => exact iff_of_false nofun fun heq => hcount (by omega)

theorem object_eq_ok_iff {read : List (String × Json) → Checked α} :
    object read input = .ok value ↔ ∃ fields, input = .obj fields ∧ read fields = .ok value := by
  cases input <;> simp [object, Checked.fail]

theorem array_eq_ok_iff {problem : Problem} {values : List α} :
    array problem check input = .ok values ↔ ∃ items, input = .arr items ∧
      List.Forall₂ (fun item value => check item = .ok value) items values := by
  cases input <;> simp [array, Checked.fail, Checked.eachFrom_eq_ok_iff]

/-! ## Names of fields -/

/-- The object has a field under exactly one of its names, with this value. -/
def Has (fields : List (String × Json)) (names : List String) (value : Json) : Prop :=
  ∃ name ∈ names, Json.lookup? fields name = some value ∧
    ∀ other ∈ names, other ≠ name → Json.lookup? fields other = none

/-- The object has a field under none of its names. -/
def Lacks (fields : List (String × Json)) (names : List String) : Prop :=
  ∀ name ∈ names, Json.lookup? fields name = none

/-- The object has a field under one of its names at most. -/
def AtMostOnce (fields : List (String × Json)) (names : List String) : Prop :=
  Lacks fields names ∨ ∃ value, Has fields names value

theorem lookup?_eq_none_iff {key : String} :
    Json.lookup? fields key = none ↔ ∀ field ∈ fields, field.1 ≠ key := by
  simp [Json.lookup?]

theorem chosen?_eq_none_iff : chosen? fields names = none ↔ Lacks fields names := by
  simp [chosen?, Lacks]

theorem mem_and_lookup?_of_chosen? {key : String} {value : Json}
    (hchosen : chosen? fields names = some (key, value)) :
    key ∈ names ∧ Json.lookup? fields key = some value := by
  obtain ⟨name, hname, hfound⟩ := List.exists_of_findSome?_eq_some hchosen
  obtain ⟨found, hlookup, heq⟩ := Option.map_eq_some_iff.mp hfound
  obtain ⟨rfl, rfl⟩ := Prod.mk.inj heq
  exact ⟨hname, hlookup⟩

theorem Has.chosen? {value : Json} (hhas : Has fields names value) :
    ∃ name, chosen? fields names = some (name, value) ∧
      ∀ other ∈ names, other ≠ name → Json.lookup? fields other = none := by
  obtain ⟨name, hname, hlookup, hothers⟩ := hhas
  cases hchosen : Field.chosen? fields names with
  | none =>
      rw [chosen?_eq_none_iff] at hchosen
      exact absurd (hlookup.symm.trans (hchosen name hname)) nofun
  | some found =>
      obtain ⟨key, other⟩ := found
      obtain ⟨hkey, hfound⟩ := mem_and_lookup?_of_chosen? hchosen
      by_cases hsame : key = name
      · subst hsame
        obtain rfl := Option.some.inj (hfound.symm.trans hlookup)
        exact ⟨key, rfl, hothers⟩
      · exact absurd (hfound.symm.trans (hothers key hkey hsame)) nofun

theorem Has.unique {other : Json} (hhas : Has fields names input) (hother : Has fields names other) :
    input = other := by
  obtain ⟨name, hchosen, -⟩ := hhas.chosen?
  obtain ⟨key, hkey, -⟩ := hother.chosen?
  exact (Prod.mk.inj (Option.some.inj (hchosen.symm.trans hkey))).2

theorem Lacks.not_has (hlacks : Lacks fields names) : ¬ Has fields names input := by
  intro hhas
  obtain ⟨name, hchosen, -⟩ := hhas.chosen?
  exact absurd ((chosen?_eq_none_iff.mpr hlacks).symm.trans hchosen) nofun

theorem Has.atMostOnce (hhas : Has fields names input) : AtMostOnce fields names :=
  .inr ⟨input, hhas⟩

/-! ## Fields -/

/-- A field that is required is one that the object has. -/
theorem required_eq_ok_iff {whole : Json} (honce : AtMostOnce fields names) :
    required whole fields names check = .ok value ↔
      ∃ input, Has fields names input ∧ check input = .ok value := by
  rw [required]
  rcases honce with hlacks | ⟨found, hhas⟩
  · rw [chosen?_eq_none_iff.mpr hlacks]
    exact ⟨nofun, fun ⟨input, hhas, _⟩ => absurd hhas hlacks.not_has⟩
  · obtain ⟨name, hchosen, -⟩ := hhas.chosen?
    simp only [hchosen, Checked.under_eq_ok_iff]
    exact ⟨fun hvalue => ⟨found, hhas, hvalue⟩, fun ⟨input, hinput, hvalue⟩ =>
      hhas.unique hinput ▸ hvalue⟩

/-- A field that is optional has a value of its own if the object lacks it. -/
theorem optional_eq_ok_iff {fallback : α} (honce : AtMostOnce fields names) :
    optional fields names fallback check = .ok value ↔
      (Lacks fields names ∧ value = fallback) ∨
        ∃ input, Has fields names input ∧ check input = .ok value := by
  rw [optional]
  rcases honce with hlacks | ⟨found, hhas⟩
  · simp only [chosen?_eq_none_iff.mpr hlacks, hlacks, true_and, Except.ok.injEq]
    exact ⟨fun hvalue => .inl hvalue.symm, fun hvalue => hvalue.elim Eq.symm
      fun ⟨input, hhas, _⟩ => absurd hhas hlacks.not_has⟩
  · obtain ⟨name, hchosen, -⟩ := hhas.chosen?
    simp only [hchosen, Checked.under_eq_ok_iff]
    exact ⟨fun hvalue => .inr ⟨found, hhas, hvalue⟩, fun hvalue => hvalue.elim
      (fun ⟨hlacks, _⟩ => absurd hhas hlacks.not_has)
      fun ⟨input, hinput, hvalue⟩ => hhas.unique hinput ▸ hvalue⟩

/-! ## Keys -/

/-- No name belongs to two fields. -/
def Apart (known : List (List String)) : Prop :=
  ∀ names ∈ known, ∀ others ∈ known, ∀ name ∈ names, name ∈ others → names = others

theorem extras_eq_ok_iff_forall :
    extras fields known = .ok () ↔
      ∀ field ∈ fields, ∃ names ∈ known, ∃ input, chosen? fields names = some (field.1, input) := by
  have hused : ∀ key, (known.filterMap fun names => (chosen? fields names).map (·.1)).contains key =
      true ↔ ∃ names ∈ known, ∃ input, chosen? fields names = some (key, input) := by
    intro key
    simp [List.mem_filterMap, Option.map_eq_some_iff]
  have hextras : extras fields known = .ok () ↔ (fields.filter fun field =>
      !(known.filterMap fun names => (chosen? fields names).map (·.1)).contains field.1) = [] := by
    rw [← firsts_eq_nil_iff (fun field : String × Json => field.1)]
    simp only [extras]
    generalize firsts (fun field : String × Json => field.1) _ = unknown
    cases unknown <;> simp
  rw [hextras, List.filter_eq_nil_iff]
  simp only [Bool.not_eq_true, Bool.not_eq_false', hused]

/-- **An object without extra keys** has names of fields only, and each field at most once. -/
theorem extras_eq_ok_iff (hapart : Apart known) :
    extras fields known = .ok () ↔
      (∀ field ∈ fields, field.1 ∈ known.flatten) ∧ ∀ names ∈ known, AtMostOnce fields names := by
  rw [extras_eq_ok_iff_forall]
  constructor
  · intro hchosen
    constructor
    · intro field hfield
      obtain ⟨names, hnames, input, hinput⟩ := hchosen field hfield
      exact List.mem_flatten.mpr ⟨names, hnames, (mem_and_lookup?_of_chosen? hinput).1⟩
    · intro names hnames
      cases hfound : chosen? fields names with
      | none => exact .inl (chosen?_eq_none_iff.mp hfound)
      | some found =>
          obtain ⟨key, input⟩ := found
          obtain ⟨hkey, hlookup⟩ := mem_and_lookup?_of_chosen? hfound
          refine .inr ⟨input, key, hkey, hlookup, fun other hother hne => ?_⟩
          -- Another name that the object has is chosen, too, and then for the same field.
          rw [lookup?_eq_none_iff]
          rintro field hfield rfl
          obtain ⟨others, hothers, value, hvalue⟩ := hchosen field hfield
          obtain rfl := hapart names hnames others hothers field.1 hother
            (mem_and_lookup?_of_chosen? hvalue).1
          rw [hfound] at hvalue
          exact hne (Prod.mk.inj (Option.some.inj hvalue)).1.symm
  · rintro ⟨hkeys, honce⟩ field hfield
    obtain ⟨names, hnames, hname⟩ := List.mem_flatten.mp (hkeys field hfield)
    rcases honce names hnames with hlacks | ⟨input, hhas⟩
    · exact absurd rfl (lookup?_eq_none_iff.mp (hlacks field.1 hname) field hfield)
    · obtain ⟨name, hchosen, hothers⟩ := hhas.chosen?
      by_cases hsame : field.1 = name
      · exact ⟨names, hnames, input, hsame ▸ hchosen⟩
      · exact absurd rfl (lookup?_eq_none_iff.mp (hothers field.1 hname hsame) field hfield)

/-- **An object with fields**, all of which are checked and beyond which there is no key.  What the
fields are checked for need only be known of objects that have no key beyond them. -/
theorem object_fields_eq_ok_iff {read : List (String × Json) → Checked α} {build : α × Unit → β}
    {value : β} {given : List (String × Json) → Prop} (hapart : Apart known)
    (hkeys : ∀ fields, given fields → ∀ field ∈ fields, field.1 ∈ known.flatten)
    (honce : ∀ fields, given fields → ∀ names ∈ known, AtMostOnce fields names)
    (hread : ∀ fields, (∀ field ∈ fields, field.1 ∈ known.flatten) →
      (∀ names ∈ known, AtMostOnce fields names) →
        ((∃ found, read fields = .ok found ∧ build (found, ()) = value) ↔ given fields)) :
    object (fun fields => ((read fields).both (extras fields known)).map build) input = .ok value ↔
      ∃ fields, input = .obj fields ∧ given fields := by
  rw [object_eq_ok_iff]
  refine exists_congr fun fields => and_congr_right fun _ => ?_
  simp only [map_eq_ok_iff, Prod.exists, Checked.both_eq_ok_iff, extras_eq_ok_iff hapart]
  constructor
  · rintro ⟨found, _, ⟨hfound, hknown, hunique⟩, hbuild⟩
    exact (hread fields hknown hunique).mp ⟨found, hfound, hbuild⟩
  · intro hgiven
    have hknown := hkeys fields hgiven
    have hunique := honce fields hgiven
    obtain ⟨found, hfound, hbuild⟩ := (hread fields hknown hunique).mpr hgiven
    exact ⟨found, (), ⟨hfound, hknown, hunique⟩, hbuild⟩

end Field
end TypeAtlas
