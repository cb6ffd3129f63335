import Mathlib.Data.List.Nodup
import Mathlib.Data.List.Perm.Basic
import Mathlib.Data.List.TakeWhile
import TypeAtlas.Proofs.Language

/-!
# What filters ask for

A list of filters is read by a loop that may stop at any of them, but its result says nothing of the
loop (`resolve_filters`): either it is the failure of the first filter that is unknown, or it is the
part of the table that the filters ask for.

One filter does one of three things: it is blank and changes nothing, it is unknown and stops the
loop, or it asks for a language (`named?`).  So known filters are resolved to what `asked` finds in
the table (`resolve_of_known`), and all the ways to write a list anew come down to one fact: what
holds of one of its filters still does (`Rephrased.exists_iff`).
-/

namespace TypeAtlas

/-! ## Blanks and capitals -/

namespace Text

variable {before chars after : List Char}

/-- A character is small already, or it is an ASCII capital. -/
theorem toLower_cases (c : Char) :
    c.toLower = c ∨ 65 ≤ c.toNat ∧ c.toNat ≤ 90 ∧ c.toLower.toNat = c.toNat + 32 := by
  unfold Char.toLower
  split
  case isTrue hcapital =>
    have hlow : 65 ≤ c.toNat := UInt32.le_iff_toNat_le.mp hcapital.1
    have hhigh : c.toNat ≤ 90 := UInt32.le_iff_toNat_le.mp hcapital.2
    refine Or.inr ⟨hlow, hhigh, ?_⟩
    show (c.val + 32).toNat = c.val.toNat + 32
    have hnat : c.val.toNat = c.toNat := rfl
    rw [UInt32.toNat_add]
    exact Nat.mod_eq_of_lt (by simp; omega)
  case isFalse => exact Or.inl rfl

theorem lowerChar_toLower (c : Char) : lowerChar c.toLower = lowerChar c := by
  rcases toLower_cases c with hsmall | ⟨hlow, hhigh, hcapital⟩
  · rw [hsmall]
  · have hsmall : c.toLower.toLower = c.toLower := by
      rcases toLower_cases c.toLower with hsmall | hcapitalToo
      · exact hsmall
      · omega
    have hc : c.toNat ≠ 0x212A := by omega
    have hlower : c.toLower.toNat ≠ 0x212A := by omega
    rw [lowerChar, lowerChar, if_neg hc, if_neg hlower, hsmall]

theorem isBlank_toLower (c : Char) : isBlank c.toLower = isBlank c := by
  rcases toLower_cases c with hsmall | ⟨hlow, hhigh, hcapital⟩
  · rw [hsmall]
  · rw [Bool.eq_iff_iff]
    simp only [isBlank, hcapital, Bool.or_eq_true, Bool.and_eq_true, decide_eq_true_eq, beq_iff_eq]
    omega

theorem dropBlanks_map_toLower :
    dropBlanks (chars.map Char.toLower) = (dropBlanks chars).map Char.toLower := by
  rw [dropBlanks, List.dropWhile_map, dropBlanks]
  congr 2
  funext c
  exact isBlank_toLower c

theorem trimChars_map_toLower :
    trimChars (chars.map Char.toLower) = (trimChars chars).map Char.toLower := by
  simp only [trimChars, dropTrailingBlanks, dropBlanks_map_toLower, ← List.map_reverse]

theorem dropBlanks_of_blank (hblank : ∀ c ∈ chars, isBlank c) : dropBlanks chars = [] :=
  List.dropWhile_eq_nil_iff.mpr hblank

theorem dropBlanks_append_of_blank (hbefore : ∀ c ∈ before, isBlank c) :
    dropBlanks (before ++ chars) = dropBlanks chars := by
  rw [dropBlanks, List.dropWhile_append_of_pos hbefore, dropBlanks]

theorem dropTrailingBlanks_append_of_blank (hafter : ∀ c ∈ after, isBlank c) :
    dropTrailingBlanks (chars ++ after) = dropTrailingBlanks chars := by
  rw [dropTrailingBlanks, List.reverse_append, dropBlanks_append_of_blank, dropTrailingBlanks]
  intro c hc
  exact hafter c (List.mem_reverse.mp hc)

/-- Blanks around a text do not change it trimmed. -/
theorem trimChars_surrounded (hbefore : ∀ c ∈ before, isBlank c) (hafter : ∀ c ∈ after, isBlank c) :
    trimChars (before ++ chars ++ after) = trimChars chars := by
  rw [trimChars, List.append_assoc, dropBlanks_append_of_blank hbefore, trimChars, dropBlanks,
    List.dropWhile_append]
  split
  case isTrue hempty =>
    have hchars : dropBlanks chars = [] := List.isEmpty_iff.mp hempty
    have hnone : List.dropWhile isBlank after = [] := dropBlanks_of_blank hafter
    rw [hchars, hnone]
  case isFalse => exact dropTrailingBlanks_append_of_blank hafter

theorem trimChars_eq_nil_iff : trimChars chars = [] ↔ ∀ c ∈ chars, isBlank c = true := by
  constructor
  · intro hnone
    -- What is dropped at the end of the rest is blank, and the rest does not begin with a blank.
    have hrest : ∀ c ∈ dropBlanks chars, isBlank c = true := by
      intro c hc
      rw [trimChars, dropTrailingBlanks, List.reverse_eq_nil_iff, dropBlanks,
        List.dropWhile_eq_nil_iff] at hnone
      exact hnone c (List.mem_reverse.mpr hc)
    rw [← List.dropWhile_eq_nil_iff]
    by_contra hne
    have hhead := List.head_dropWhile_not isBlank hne
    rw [hrest _ (List.head_mem hne)] at hhead
    cases hhead
  · intro hblank
    rw [trimChars, dropBlanks_of_blank hblank]
    rfl

end Text

namespace Language

variable {language other : Language} {filter spelling word : String}
  {filters others before after : List String}

/-! ## The words of the table -/

/-- The words that ask for a language. -/
def words (language : Language) : List String :=
  language.name :: language.aliases

theorem isNamed_eq_true_iff : language.isNamed word = true ↔ word ∈ language.words := by
  simp [isNamed, words]

theorem name_eq_of_mem_words : ∀ language ∈ table, ∀ other ∈ table, ∀ word ∈ language.words,
    word ∈ other.words → language.name = other.name := by
  decide

/-- No word asks for two languages. -/
theorem eq_of_mem_words (hlanguage : language ∈ table) (hother : other ∈ table)
    (hword : word ∈ language.words) (hwordOther : word ∈ other.words) : language = other :=
  eq_of_name_eq hlanguage hother
    (name_eq_of_mem_words language hlanguage other hother word hword hwordOther)

theorem empty_not_mem_words : ∀ language ∈ table, "" ∉ language.words := by
  decide

theorem normalize_word : ∀ language ∈ table, ∀ word ∈ language.words, normalize word = word := by
  decide

/-! ## A single filter -/

/-- The characters of a filter that is blank. -/
def IsBlank (filter : String) : Prop :=
  ∀ c ∈ filter.toList, Text.isBlank c = true

/-- A filter that is not blank and asks for no language. -/
def IsUnknown (filter : String) : Prop :=
  normalize filter ≠ "" ∧ ∀ language ∈ table, normalize filter ∉ language.words

/-- The language that a filter asks for. -/
def named? (filter : String) : Option Language :=
  table.find? fun language => language.isNamed (normalize filter)

theorem normalize_eq (filter : String) :
    normalize filter = String.ofList ((Text.trimChars filter.toList).map Text.lowerChar) := by
  rw [normalize, Text.lowerAscii, Text.trim, String.toList_ofList]

theorem normalize_eq_empty_iff : normalize filter = "" ↔ IsBlank filter := by
  rw [normalize_eq, IsBlank, ← Text.trimChars_eq_nil_iff]
  simp

theorem named?_eq_some_iff :
    named? filter = some language ↔ language ∈ table ∧ normalize filter ∈ language.words := by
  rw [named?, find?_eq_some_iff_of_unique, isNamed_eq_true_iff]
  intro language hlanguage other hother hnamed hnamedOther
  exact eq_of_mem_words hlanguage hother (isNamed_eq_true_iff.mp hnamed)
    (isNamed_eq_true_iff.mp hnamedOther)

theorem mem_words_iff (hlanguage : language ∈ table) :
    normalize filter ∈ language.words ↔ named? filter = some language := by
  rw [named?_eq_some_iff, and_iff_right hlanguage]

theorem named?_eq_none_iff :
    named? filter = none ↔ ∀ language ∈ table, normalize filter ∉ language.words := by
  simp only [named?, List.find?_eq_none, isNamed_eq_true_iff]

theorem isUnknown_iff : IsUnknown filter ↔ normalize filter ≠ "" ∧ named? filter = none := by
  rw [IsUnknown, named?_eq_none_iff]

theorem named?_eq_none_of_blank (hblank : normalize filter = "") : named? filter = none := by
  rw [named?_eq_none_iff, hblank]
  exact empty_not_mem_words

/-! ## The loop -/

/-- A filter that is not unknown leaves the loop running, and adds the name of its language if it
has one. -/
theorem wanted_cons_of_known (hfilter : ¬ IsUnknown filter) : wanted (filter :: filters) =
    (wanted filters).map ((named? filter).toList.map name ++ ·) := by
  rw [isUnknown_iff, not_and] at hfilter
  rw [wanted, ← named?]
  split
  case isTrue hblank =>
    rw [named?_eq_none_of_blank hblank]
    cases wanted filters <;> rfl
  case isFalse hnonblank =>
    cases hnamed : named? filter with
    | none => exact absurd hnamed (hfilter hnonblank)
    | some language => rfl

theorem wanted_cons_of_unknown (hfilter : IsUnknown filter) :
    wanted (filter :: filters) = .error (.unknownLanguage filter supported) := by
  obtain ⟨hnonblank, hnone⟩ := isUnknown_iff.mp hfilter
  rw [wanted, ← named?, if_neg hnonblank, hnone]

theorem wanted_of_unknown (hbefore : ∀ other ∈ before, ¬ IsUnknown other)
    (hfilter : IsUnknown filter) :
    wanted (before ++ filter :: after) = .error (.unknownLanguage filter supported) := by
  induction before with
  | nil => exact wanted_cons_of_unknown hfilter
  | cons other before ih =>
      obtain ⟨hother, hbefore⟩ := List.forall_mem_cons.mp hbefore
      rw [List.cons_append, wanted_cons_of_known hother, ih hbefore]
      rfl

theorem wanted_of_known (hknown : ∀ filter ∈ filters, ¬ IsUnknown filter) :
    wanted filters = .ok ((filters.filterMap named?).map name) := by
  induction filters with
  | nil => rfl
  | cons filter filters ih =>
      obtain ⟨hfilter, hknown⟩ := List.forall_mem_cons.mp hknown
      rw [wanted_cons_of_known hfilter, ih hknown, List.filterMap_cons]
      cases named? filter <;> rfl

/-- Where not all filters are known, there is a first one that is not. -/
theorem exists_first_unknown (filters : List String) : (∀ filter ∈ filters, ¬ IsUnknown filter) ∨
    ∃ before filter after, filters = before ++ filter :: after ∧
      (∀ other ∈ before, ¬ IsUnknown other) ∧ IsUnknown filter := by
  induction filters with
  | nil => exact Or.inl nofun
  | cons filter filters ih =>
      by_cases hfilter : IsUnknown filter
      · exact Or.inr ⟨[], filter, filters, rfl, nofun, hfilter⟩
      · rcases ih with hknown | ⟨before, first, after, rfl, hbefore, hfirst⟩
        · exact Or.inl (List.forall_mem_cons.mpr ⟨hfilter, hknown⟩)
        · exact Or.inr ⟨filter :: before, first, after, rfl,
            List.forall_mem_cons.mpr ⟨hfilter, hbefore⟩, hfirst⟩

/-! ## The languages that are asked for -/

/-- A list of filters asks for a language if one of them is a word for it. -/
def AsksFor (filters : List String) (language : Language) : Prop :=
  ∃ filter ∈ filters, normalize filter ∈ language.words

instance : Decidable (AsksFor filters language) :=
  inferInstanceAs (Decidable (∃ filter ∈ filters, normalize filter ∈ language.words))

def asked (filters : List String) : List Language :=
  table.filter fun language => AsksFor filters language

theorem mem_asked : language ∈ asked filters ↔ language ∈ table ∧ AsksFor filters language := by
  rw [asked, List.mem_filter, decide_eq_true_iff]

theorem mem_filterMap_named? :
    language ∈ filters.filterMap named? ↔ language ∈ table ∧ AsksFor filters language := by
  rw [List.mem_filterMap]
  constructor
  · rintro ⟨filter, hfilter, hnamed⟩
    obtain ⟨hlanguage, hword⟩ := named?_eq_some_iff.mp hnamed
    exact ⟨hlanguage, filter, hfilter, hword⟩
  · rintro ⟨hlanguage, filter, hfilter, hword⟩
    exact ⟨filter, hfilter, named?_eq_some_iff.mpr ⟨hlanguage, hword⟩⟩

theorem asked_eq_nil_iff (hknown : ∀ filter ∈ filters, ¬ IsUnknown filter) :
    asked filters = [] ↔ ∀ filter ∈ filters, IsBlank filter := by
  rw [List.eq_nil_iff_forall_not_mem]
  constructor
  · intro hnone filter hfilter
    rw [← normalize_eq_empty_iff]
    by_contra hnonblank
    apply hknown filter hfilter
    refine ⟨hnonblank, ?_⟩
    intro language hlanguage hword
    exact hnone language (mem_asked.mpr ⟨hlanguage, filter, hfilter, hword⟩)
  · intro hblank language hasked
    obtain ⟨hlanguage, filter, hfilter, hword⟩ := mem_asked.mp hasked
    rw [normalize_eq_empty_iff.mpr (hblank filter hfilter)] at hword
    exact empty_not_mem_words language hlanguage hword

/-- **What known filters are resolved to is only the languages they ask for.** -/
theorem resolve_of_known (hknown : ∀ filter ∈ filters, ¬ IsUnknown filter) :
    resolve (some filters) = .ok (if asked filters = [] then none else some (asked filters)) := by
  have hfilter : (table.filter fun language =>
      ((filters.filterMap named?).map name).contains language.name) = asked filters := by
    apply List.filter_congr
    intro language hlanguage
    rw [Bool.eq_iff_iff, List.contains_iff_mem, decide_eq_true_iff, List.mem_map]
    constructor
    · rintro ⟨other, hother, hname⟩
      obtain ⟨htable, hasks⟩ := mem_filterMap_named?.mp hother
      rwa [← eq_of_name_eq htable hlanguage hname]
    · intro hasks
      exact ⟨language, mem_filterMap_named?.mpr ⟨hlanguage, hasks⟩, rfl⟩
  have hempty : ((filters.filterMap named?).map name).isEmpty = true ↔ asked filters = [] := by
    rw [List.isEmpty_iff, List.map_eq_nil_iff]
    simp only [List.eq_nil_iff_forall_not_mem, mem_asked, mem_filterMap_named?]
  rw [resolve, wanted_of_known hknown]
  simp only [Except.map, hfilter, hempty]

example : (asked ["golang", " JAVA ", ""]).map name = ["java", "go"] := by decide

theorem resolve_of_unknown (hbefore : ∀ other ∈ before, ¬ IsUnknown other)
    (hfilter : IsUnknown filter) : resolve (some (before ++ filter :: after)) =
      .error (.unknownLanguage filter supported) := by
  rw [resolve, wanted_of_unknown hbefore hfilter]
  rfl

theorem asked_congr (hasks : ∀ language ∈ table, AsksFor filters language ↔ AsksFor others language) :
    asked filters = asked others := by
  apply List.filter_congr
  intro language hlanguage
  exact decide_eq_decide.mpr (hasks language hlanguage)

theorem nodup_asked (filters : List String) : ((asked filters).map name).Nodup := by
  have htable : (table.map name).Nodup := by decide
  exact htable.sublist (List.filter_sublist.map name)

/-- Languages are asked for by their own names, and by nothing else among the names. -/
theorem asksFor_names (hlanguage : language ∈ table) :
    AsksFor ((asked filters).map name) language ↔ AsksFor filters language := by
  constructor
  · rintro ⟨filter, hfilter, hword⟩
    obtain ⟨other, hother, rfl⟩ := List.mem_map.mp hfilter
    obtain ⟨htable, hasks⟩ := mem_asked.mp hother
    have hname : other.name ∈ other.words := List.mem_cons_self
    rw [normalize_word other htable _ hname] at hword
    rwa [eq_of_mem_words hlanguage htable hword hname]
  · intro hasks
    have hname : language.name ∈ language.words := List.mem_cons_self
    refine ⟨language.name, List.mem_map_of_mem (mem_asked.mpr ⟨hlanguage, hasks⟩), ?_⟩
    rwa [normalize_word language hlanguage _ hname]

theorem not_isUnknown_of_mem_words (hlanguage : language ∈ table) (hword : word ∈ language.words) :
    ¬ IsUnknown word := by
  rintro ⟨-, hunknown⟩
  apply hunknown language hlanguage
  rwa [normalize_word language hlanguage word hword]

/-! ## Filters that are written anew -/

/-- Two spellings of one filter: they differ in the case of ASCII letters, or one has blanks around
the other, or one is the name of a language and the other is an alias of it. -/
inductive SameWord : String → String → Prop
  | recased {filter other : String}
      (hchars : filter.toList.map Char.toLower = other.toList.map Char.toLower) :
      SameWord filter other
  | surrounded {before after : String} (filter : String) (hbefore : IsBlank before)
      (hafter : IsBlank after) : SameWord filter (before ++ filter ++ after)
  | aliased {language : Language} {word : String} (hlanguage : language ∈ table)
      (hword : word ∈ language.aliases) : SameWord language.name word

/-- Two ways to write one list of filters: in another order, with a filter twice, with a blank one
more, or with a filter in another spelling. -/
inductive Rephrased : List String → List String → Prop
  | reordered {filters others : List String} (hperm : filters.Perm others) :
      Rephrased filters others
  | repeated {filters : List String} {filter : String} (hfilter : filter ∈ filters) :
      Rephrased filters (filter :: filters)
  | padded {filters : List String} {blank : String} (hblank : IsBlank blank) :
      Rephrased filters (blank :: filters)
  | respelled {before after : List String} {filter other : String} (hsame : SameWord filter other) :
      Rephrased (before ++ filter :: after) (before ++ other :: after)
  | symm {filters others : List String} (hothers : Rephrased others filters) :
      Rephrased filters others
  | trans {filters between others : List String} (hfirst : Rephrased filters between)
      (hsecond : Rephrased between others) : Rephrased filters others

theorem named?_word (hlanguage : language ∈ table) (hword : word ∈ language.words) :
    named? word = some language := by
  rw [named?_eq_some_iff, normalize_word language hlanguage word hword]
  exact ⟨hlanguage, hword⟩

namespace SameWord

/-- Spellings that differ in capitals or in blanks around them are normalized to the same word, and
a name and its alias to two words for one language. -/
theorem normalize_eq_or (hsame : SameWord filter spelling) : normalize filter = normalize spelling ∨
    ∃ language, named? filter = some language ∧ named? spelling = some language := by
  cases hsame with
  | recased hchars =>
      left
      have hlower : ∀ chars : List Char, chars.map Text.lowerChar =
          (chars.map Char.toLower).map Text.lowerChar := by
        intro chars
        rw [List.map_map]
        exact List.map_congr_left fun c _ => (Text.lowerChar_toLower c).symm
      rw [normalize_eq, normalize_eq, hlower, hlower (Text.trimChars _), ← Text.trimChars_map_toLower,
        ← Text.trimChars_map_toLower, hchars]
  | surrounded filter hbefore hafter =>
      left
      rw [normalize_eq, normalize_eq, String.toList_append, String.toList_append,
        Text.trimChars_surrounded hbefore hafter]
  | aliased hlanguage hword =>
      right
      exact ⟨_, named?_word hlanguage List.mem_cons_self,
        named?_word hlanguage (List.mem_cons_of_mem _ hword)⟩

theorem named?_eq (hsame : SameWord filter spelling) : named? filter = named? spelling := by
  rcases hsame.normalize_eq_or with hword | ⟨language, hfilter, hspelling⟩
  · rw [named?, named?, hword]
  · rw [hfilter, hspelling]

theorem isUnknown_iff (hsame : SameWord filter spelling) :
    IsUnknown filter ↔ IsUnknown spelling := by
  rw [Language.isUnknown_iff, Language.isUnknown_iff]
  rcases hsame.normalize_eq_or with hword | ⟨language, hfilter, hspelling⟩
  · rw [named?, named?, hword]
  · simp [hfilter, hspelling]

end SameWord

namespace Rephrased

/-- What holds of one of some filters holds of one of them in any other way to write them, if it
holds of no blank filter and of all spellings of a filter alike. -/
theorem exists_iff {holds : String → Prop} (hrephrased : Rephrased filters others)
    (hblank : ∀ filter, IsBlank filter → ¬ holds filter)
    (hsame : ∀ filter spelling, SameWord filter spelling → (holds filter ↔ holds spelling)) :
    (∃ filter ∈ filters, holds filter) ↔ ∃ filter ∈ others, holds filter := by
  induction hrephrased with
  | reordered hperm => simp only [hperm.mem_iff]
  | repeated hfilter =>
      rw [List.exists_mem_cons_iff]
      exact ⟨Or.inr, Or.rec (fun hholds => ⟨_, hfilter, hholds⟩) id⟩
  | padded hpadding =>
      rw [List.exists_mem_cons_iff]
      exact ⟨Or.inr, Or.rec (fun hholds => absurd hholds (hblank _ hpadding)) id⟩
  | @respelled before after filter other hword =>
      simp only [List.mem_append, List.mem_cons, or_and_right, exists_or, exists_eq_left,
        hsame _ _ hword]
  | symm _ ih => exact ih.symm
  | trans _ _ ihfirst ihsecond => exact ihfirst.trans ihsecond

theorem asksFor_iff (hrephrased : Rephrased filters others) (hlanguage : language ∈ table) :
    AsksFor filters language ↔ AsksFor others language := by
  apply hrephrased.exists_iff
  · intro filter hblank hword
    rw [normalize_eq_empty_iff.mpr hblank] at hword
    exact empty_not_mem_words language hlanguage hword
  · intro filter spelling hsame
    rw [mem_words_iff hlanguage, mem_words_iff hlanguage, hsame.named?_eq]

theorem known (hrephrased : Rephrased filters others)
    (hknown : ∀ filter ∈ filters, ¬ IsUnknown filter) : ∀ filter ∈ others, ¬ IsUnknown filter := by
  intro filter hfilter hunknown
  have hexists : ∃ filter ∈ filters, IsUnknown filter := by
    rw [hrephrased.exists_iff]
    · exact ⟨filter, hfilter, hunknown⟩
    · exact fun filter hblank hunknown => hunknown.1 (normalize_eq_empty_iff.mpr hblank)
    · exact fun filter spelling hsame => hsame.isUnknown_iff
  obtain ⟨first, hfirst, hunknown⟩ := hexists
  exact hknown first hfirst hunknown

end Rephrased

/-! ## What filters are resolved to -/

/-- Filters that are resolved to something are known. -/
theorem known_of_resolve {result : Option (List Language)}
    (hresult : resolve (some filters) = .ok result) : ∀ filter ∈ filters, ¬ IsUnknown filter := by
  rcases exists_first_unknown filters with hknown | ⟨before, filter, after, rfl, hbefore, hfilter⟩
  · exact hknown
  · rw [resolve_of_unknown hbefore hfilter] at hresult
    cases hresult

theorem resolve_eq_ok_iff {result : Option (List Language)} :
    resolve (some filters) = .ok result ↔ (∀ filter ∈ filters, ¬ IsUnknown filter) ∧
      result = if asked filters = [] then none else some (asked filters) := by
  constructor
  · intro hresult
    have hknown := known_of_resolve hresult
    rw [resolve_of_known hknown] at hresult
    exact ⟨hknown, (Except.ok.inj hresult).symm⟩
  · rintro ⟨hknown, rfl⟩
    exact resolve_of_known hknown

theorem exists_first_of_error {failure : Failure}
    (hfailure : resolve (some filters) = .error failure) :
    ∃ before filter after, filters = before ++ filter :: after ∧
      (∀ other ∈ before, ¬ IsUnknown other) ∧ IsUnknown filter ∧
      failure = .unknownLanguage filter supported := by
  rcases exists_first_unknown filters with hknown | ⟨before, filter, after, rfl, hbefore, hfilter⟩
  · rw [resolve_of_known hknown] at hfailure
    cases hfailure
  · rw [resolve_of_unknown hbefore hfilter] at hfailure
    exact ⟨before, filter, after, rfl, hbefore, hfilter, (Except.error.inj hfailure).symm⟩

theorem exists_error_iff : (∃ failure, resolve (some filters) = .error failure) ↔
    ∃ filter ∈ filters, IsUnknown filter := by
  constructor
  · rintro ⟨failure, hfailure⟩
    obtain ⟨before, filter, after, rfl, -, hfilter, -⟩ := exists_first_of_error hfailure
    exact ⟨filter, List.mem_append_right _ List.mem_cons_self, hfilter⟩
  · rintro ⟨filter, hfilter, hunknown⟩
    cases hresolve : resolve (some filters) with
    | error failure => exact ⟨failure, rfl⟩
    | ok result => exact absurd hunknown (known_of_resolve hresolve filter hfilter)

/-- The names of what filters are resolved to are resolved to the same. -/
theorem resolve_names {result : Option (List Language)}
    (hresult : resolve (some filters) = .ok result) :
    resolve (result.map fun languages => languages.map name) = .ok result := by
  obtain ⟨-, rfl⟩ := resolve_eq_ok_iff.mp hresult
  split
  case isTrue => rfl
  case isFalse hsome =>
    have hnames : asked ((asked filters).map name) = asked filters :=
      asked_congr fun language hlanguage => asksFor_names hlanguage
    rw [Option.map_some, resolve_of_known, hnames, if_neg hsome]
    intro filter hfilter
    obtain ⟨language, hlanguage, rfl⟩ := List.mem_map.mp hfilter
    exact not_isUnknown_of_mem_words (mem_asked.mp hlanguage).1 List.mem_cons_self

/-- How a list of filters is read. -/
structure ReadsFilters (filters : List String) : Prop where
  /-- It fails if and only if a filter is unknown. -/
  fails_iff : (∃ failure, resolve (some filters) = .error failure) ↔
    ∃ filter ∈ filters, IsUnknown filter
  /-- The failure names the first unknown filter as it is written. -/
  failure_eq : ∀ failure, resolve (some filters) = .error failure →
    ∃ before filter after, filters = before ++ filter :: after ∧
      (∀ other ∈ before, ¬ IsUnknown other) ∧ IsUnknown filter ∧
      failure = .unknownLanguage filter supported
  /-- There is nothing to admit by if and only if all filters are blank. -/
  none_iff : ∀ result, resolve (some filters) = .ok result →
    (result = none ↔ ∀ filter ∈ filters, IsBlank filter)
  /-- The languages are those that are asked for, in the order of the table and each of them once. -/
  languages : ∀ languages, resolve (some filters) = .ok (some languages) →
    languages.Sublist table ∧ (languages.map name).Nodup ∧
      ∀ language, language ∈ languages ↔ language ∈ table ∧ AsksFor filters language
  /-- All known filters with the same languages have the same result. -/
  determined : ∀ result others, resolve (some filters) = .ok result →
    (∀ filter ∈ others, ¬ IsUnknown filter) →
    (∀ language ∈ table, AsksFor filters language ↔ AsksFor others language) →
      resolve (some others) = .ok result
  /-- The same filters written anew have the same result. -/
  rephrased : ∀ result others, resolve (some filters) = .ok result → Rephrased filters others →
    resolve (some others) = .ok result
  /-- The names of the languages have the same result. -/
  again : ∀ result, resolve (some filters) = .ok result →
    resolve (result.map fun languages => languages.map name) = .ok result

/-- **Filters fail with the first one that is unknown, and are resolved to the languages they ask
for otherwise, however they are written.** -/
theorem resolve_filters (filters : List String) : ReadsFilters filters where
  fails_iff := exists_error_iff
  failure_eq _ hfailure := exists_first_of_error hfailure
  none_iff := by
    intro result hresult
    obtain ⟨hknown, rfl⟩ := resolve_eq_ok_iff.mp hresult
    rw [← asked_eq_nil_iff hknown]
    by_cases hempty : asked filters = [] <;> simp [hempty]
  languages := by
    intro languages hresult
    obtain ⟨-, hlanguages⟩ := resolve_eq_ok_iff.mp hresult
    split at hlanguages
    · cases hlanguages
    · rw [Option.some.inj hlanguages]
      exact ⟨List.filter_sublist, nodup_asked filters, fun language => mem_asked⟩
  determined := by
    intro result others hresult hothers hasks
    obtain ⟨-, rfl⟩ := resolve_eq_ok_iff.mp hresult
    rw [resolve_of_known hothers, asked_congr hasks]
  rephrased := by
    intro result others hresult hrephrased
    obtain ⟨hknown, rfl⟩ := resolve_eq_ok_iff.mp hresult
    have hasked := asked_congr fun language hlanguage => hrephrased.asksFor_iff hlanguage
    rw [resolve_of_known (hrephrased.known hknown), hasked]
  again _ hresult := resolve_names hresult

end Language
end TypeAtlas
