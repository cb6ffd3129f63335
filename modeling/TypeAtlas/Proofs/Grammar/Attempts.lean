import TypeAtlas.Proofs.Entries
import TypeAtlas.Proofs.Grammar.Preference

/-!
# Grammars are looked for once

A cache that is asked for names answers each of them in the same way, whatever it was asked before,
and looks for each grammar once.  `Enquiry` is a cache with what it was asked and what it answered.

How often a grammar was looked for does not show in a cache, so the loads are noted on the side:
`GrammarCache.getBy` is `GrammarCache.get` with loading as a parameter, and the loads of an enquiry
are those of `Loader.loadNoting`, which loads and notes the name; nothing else changes by it
(`value_getBy_loadNoting`).  That the core and the pack are examined once is a matter of the two cells
of the loader: whatever is loaded, the loader only ever asks them (`Loader.Follows`), and a cell
counts its runs (`Once.IsCounted`).

`Enquiry.resolves_once` is the main statement.
-/

namespace TypeAtlas

/-! ## Examining the core and the pack -/

/-- A cell has run its factory once if it is set, and else not at all. -/
def Once.IsCounted (cell : Once α) : Prop := cell.runs = cell.stored.toList.length

theorem Once.IsCounted.get {cell : Once α} (hcell : cell.IsCounted) (factory : Nat → Logged α) :
    (cell.get factory).value.2.IsCounted := by
  rw [Once.get]
  cases hstored : cell.stored with
  | some result => exact hcell
  | none =>
      rw [IsCounted, hstored] at hcell
      exact congrArg (· + 1) hcell

namespace Loader

/-- What becomes of a loader that is only asked for the backend and for the pack. -/
inductive Follows (installed : Installation) (loader : Loader) : Loader → Prop where
  | refl : Follows installed loader loader
  | detected {between : Loader} (before : Follows installed loader between) :
      Follows installed loader (resolveBackend installed between).value.2
  | opened {between : Loader} (before : Follows installed loader between) :
      Follows installed loader (openPack installed between).value.2

variable {installed : Installation} {loader loader' : Loader}

theorem Follows.trans {last : Loader} (hfirst : Follows installed loader loader')
    (hlast : Follows installed loader' last) : Follows installed loader last := by
  induction hlast with
  | refl => exact hfirst
  | detected _ ih => exact .detected ih
  | opened _ ih => exact .opened ih

/-- One step after the other. -/
theorem Follows.bind {step : Logged (α × Loader)} {next : α × Loader → Logged (β × Loader)}
    (hstep : Follows installed loader step.value.2)
    (hnext : ∀ found, Follows installed found.2 (next found).value.2) :
    Follows installed loader (step >>= next).value.2 := by
  rw [Logged.value_bind]
  exact hstep.trans (hnext step.value)

theorem follows_moduleToTry (installed : Installation) (spec : GrammarSpec) (forcePortable : Bool)
    (loader : Loader) :
    Follows installed loader (moduleToTry installed spec forcePortable loader).value.2 := by
  rw [moduleToTry]
  cases spec.module? with
  | none => exact .refl
  | some module =>
      cases forcePortable with
      | true => exact .refl
      | false => exact .detected .refl

theorem follows_tryNative (installed : Installation) (spec : GrammarSpec) (forcePortable : Bool)
    (loader : Loader) :
    Follows installed loader (tryNative installed spec forcePortable loader).value.2 := by
  refine (follows_moduleToTry installed spec forcePortable loader).bind ?_
  rintro ⟨module?, between⟩
  cases module? with
  | none => exact .refl
  | some module =>
      cases hfound : spec.fromNative installed module <;> simp only [hfound] <;> exact .refl

theorem follows_tryPack (installed : Installation) (spec : GrammarSpec) (loader : Loader) :
    Follows installed loader (tryPack installed spec loader).value.2 := by
  refine (Follows.opened .refl).bind ?_
  rintro ⟨pack, between⟩
  cases hfound : pack.bind spec.fromPack <;> simp only [hfound] <;> exact .refl

theorem follows_load (installed : Installation) (spec : GrammarSpec) (forcePortable : Bool)
    (loader : Loader) :
    Follows installed loader (load installed spec forcePortable loader).value.2 := by
  refine (follows_tryNative installed spec forcePortable loader).bind ?_
  rintro ⟨native?, between⟩
  cases native? with
  | some grammar => exact .refl
  | none => exact (follows_tryPack installed spec between).bind fun _ => .refl

/-- Both cells have run at most once. -/
structure IsCounted (loader : Loader) : Prop where
  backend : loader.backend.IsCounted
  pack : loader.pack.IsCounted

theorem IsCounted.follows (hloader : loader.IsCounted)
    (hfollows : Follows installed loader loader') : loader'.IsCounted := by
  induction hfollows with
  | refl => exact hloader
  | detected _ ih => exact ⟨ih.backend.get _, ih.pack⟩
  | opened _ ih => exact ⟨ih.backend, ih.pack.get _⟩

/-- `load`, and the name of the grammar behind the names of those that were loaded before. -/
def loadNoting (installed : Installation) (spec : GrammarSpec) (forcePortable : Bool)
    (noting : Loader × List String) :
    Logged (Except Failure LoadedGrammar × Loader × List String) := do
  let (outcome, loader) ← load installed spec forcePortable noting.1
  pure (outcome, loader, noting.2 ++ [spec.name])

end Loader

/-! ## Asking a cache -/

namespace GrammarCache

/-- What `get` does, with loading as a parameter that keeps whatever it wants to. -/
def getBy (load : GrammarSpec → Bool → σ → Logged (Except Failure LoadedGrammar × σ))
    (name : String) (cache : GrammarCache) (state : σ) :
    Logged (Except Failure LoadedGrammar × GrammarCache × σ) :=
  match cache.known? name with
  | some outcome => pure (outcome, cache, state)
  | none =>
    match GrammarSpec.find? name with
    | none =>
      let failure := Failure.unknownGrammar name
      pure (.error failure, cache.refuse name failure, state)
    | some spec => do
      let (outcome, state) ← load spec cache.forcePortable state
      match outcome with
      | .error failure => pure (.error failure, cache.refuse name failure, state)
      | .ok loaded =>
        Logged.tell .info .grammars "grammar_ready"
          [("grammar", .str name), ("backend", .str loaded.backend.name)]
        pure (.ok loaded, cache.keep name loaded, state)

/-- With what came of a name. -/
def remember (cache : GrammarCache) (name : String) : Except Failure LoadedGrammar → GrammarCache
  | .ok loaded => cache.keep name loaded
  | .error failure => cache.refuse name failure

variable {installed : Installation} {cache : GrammarCache} {loader : Loader} {name : String}

theorem known?_eq_none_iff : cache.known? name = none ↔
    name ∉ cache.loaded.map Prod.fst ∧ name ∉ cache.failed.map Prod.fst := by
  have hkeys : ∀ {α : Type} (entries : List (String × α)),
      entries.lookup name = none ↔ name ∉ entries.map Prod.fst := by
    intro α entries
    rw [List.lookup_eq_none_iff, List.mem_map, not_exists]
    simp only [bne_iff_ne, ne_eq, not_and]
    exact ⟨fun hnone entry hentry hname => hnone entry hentry hname.symm,
      fun hnone entry hentry hname => hnone entry hentry hname.symm⟩
  rw [known?, ← hkeys, ← hkeys]
  cases cache.loaded.lookup name <;> simp

theorem get_of_known (installed : Installation) (loader : Loader)
    {outcome : Except Failure LoadedGrammar} (hknown : cache.known? name = some outcome) :
    cache.get installed name loader = pure (outcome, cache, loader) := by
  rw [get, hknown]

/-- What a cache does not know it remembers. -/
theorem cache_of_new (installed : Installation) (loader : Loader)
    (hnew : cache.known? name = none) :
    (cache.get installed name loader).value.2.1 =
      cache.remember name (cache.get installed name loader).value.1 := by
  rw [get, hnew]
  cases GrammarSpec.find? name with
  | none => rfl
  | some spec =>
      simp only [Logged.value_bind]
      generalize (loader.load installed spec cache.forcePortable).value = loading
      obtain ⟨outcome, between⟩ := loading
      cases outcome <;> rfl

theorem known?_remember (hnew : cache.known? name = none)
    (outcome : Except Failure LoadedGrammar) (other : String) :
    (cache.remember name outcome).known? other =
      if other = name then some outcome else cache.known? other := by
  cases outcome with
  | error failure => exact known?_refuse hnew failure other
  | ok loaded => exact known?_keep hnew loaded other

theorem follows_get (installed : Installation) (name : String) (cache : GrammarCache)
    (loader : Loader) :
    Loader.Follows installed loader (cache.get installed name loader).value.2.2 := by
  rw [get]
  cases cache.known? name with
  | some outcome => exact .refl
  | none =>
      cases GrammarSpec.find? name with
      | none => exact .refl
      | some spec =>
          have hload := Loader.follows_load installed spec cache.forcePortable loader
          simp only [Logged.value_bind]
          generalize (loader.load installed spec cache.forcePortable).value = loading at hload ⊢
          obtain ⟨outcome, between⟩ := loading
          cases outcome <;> exact hload

/-- The grammar that is loaded when a name is asked, if one is. -/
def sought? (cache : GrammarCache) (name : String) : Option GrammarSpec :=
  match cache.known? name with
  | some _ => none
  | none => GrammarSpec.find? name

/-- Noting the loads changes nothing, and what is noted are the grammars that are loaded. -/
theorem value_getBy_loadNoting (installed : Installation) (name : String) (cache : GrammarCache)
    (loader : Loader) (noted : List String) :
    (cache.getBy (Loader.loadNoting installed) name (loader, noted)).value =
      let (outcome, cache', loader') := (cache.get installed name loader).value
      (outcome, cache', loader', noted ++ (cache.sought? name).toList.map GrammarSpec.name) := by
  rw [getBy, get, sought?]
  cases cache.known? name with
  | some outcome => simp
  | none =>
      cases GrammarSpec.find? name with
      | none => simp
      | some spec =>
          simp only [Loader.loadNoting, Logged.value_bind, Logged.value_pure]
          generalize (loader.load installed spec cache.forcePortable).value = loading
          obtain ⟨outcome, between⟩ := loading
          cases outcome <;> rfl

end GrammarCache

/-- A cache with what it was asked, what it answered, and which grammars were looked for. -/
structure Enquiry where
  cache : GrammarCache
  loader : Loader := {}
  answers : List (String × Except Failure LoadedGrammar) := []
  loads : List String := []

namespace Enquiry

/-- One more name is asked. -/
def ask (installed : Installation) (enquiry : Enquiry) (name : String) : Enquiry :=
  let (answer, cache, loader) := (enquiry.cache.get installed name enquiry.loader).value
  let noting := (enquiry.cache.getBy (Loader.loadNoting installed) name
    (enquiry.loader, enquiry.loads)).value
  ⟨cache, loader, enquiry.answers ++ [(name, answer)], noting.2.2.2⟩

/-- A new cache is asked for names, one after the other. -/
def ofNames (installed : Installation) (forcePortable : Bool) (names : List String) : Enquiry :=
  names.foldl (ask installed) { cache := { forcePortable } }

/-- A name with the source of its grammar, if the answer is a grammar. -/
def success? (name : String) (answer : Except Failure LoadedGrammar) : Option (String × Backend) :=
  answer.toOption.map fun loaded => (name, loaded.backend)

/-- The answers that are grammars, in order. -/
def successes (enquiry : Enquiry) : List (String × Backend) :=
  enquiry.answers.filterMap fun (name, answer) => success? name answer

/-- What is found out by asking a new cache for names, in whatever order and however often. -/
structure Settles (installed : Installation) (forcePortable : Bool) (names : List String)
    (enquiry : Enquiry) : Prop where
  /-- Each answer is a function of the name. -/
  answers : enquiry.answers =
    names.map fun name => (name, installed.grammar forcePortable name)
  /-- The answer for a grammar of the table is the grammar from its own module, else the one from the
  pack, else the failure. -/
  gives : ∀ spec ∈ GrammarSpec.table, ∀ answer, (spec.name, answer) ∈ enquiry.answers →
    spec.Gives installed forcePortable answer
  /-- The grammars of the table that were asked for have been looked for, each once. -/
  loads : enquiry.loads = firsts id (names.filter fun name => (GrammarSpec.find? name).isSome)
  loads_nodup : enquiry.loads.Nodup
  /-- The core has been examined once or not at all. -/
  detections : enquiry.loader.backend.runs ≤ 1
  /-- The pack has been opened once or not at all. -/
  openings : enquiry.loader.pack.runs ≤ 1
  /-- Nothing is recorded both as loaded and as failed. -/
  apart : ∀ name ∈ enquiry.cache.loaded.map Prod.fst, name ∉ enquiry.cache.failed.map Prod.fst
  /-- The cache lists what was loaded, in the order of first success. -/
  backends : enquiry.cache.backends = firsts Prod.fst enquiry.successes

/-- What holds after each name. -/
structure Sound (installed : Installation) (forcePortable : Bool) (names : List String)
    (enquiry : Enquiry) : Prop where
  cache : enquiry.cache.Faithful installed forcePortable
  loader : enquiry.loader.Faithful installed
  counted : enquiry.loader.IsCounted
  known : ∀ name, enquiry.cache.known? name = none ↔ name ∉ names
  answers : enquiry.answers =
    names.map fun name => (name, installed.grammar forcePortable name)
  loads : enquiry.loads = firsts id (names.filter fun name => (GrammarSpec.find? name).isSome)
  apart : ∀ name ∈ enquiry.cache.loaded.map Prod.fst, name ∉ enquiry.cache.failed.map Prod.fst
  backends : enquiry.cache.backends = firsts Prod.fst enquiry.successes

variable {installed : Installation} {forcePortable : Bool} {names : List String}
  {enquiry : Enquiry} {name : String}

theorem sound_new (installed : Installation) (forcePortable : Bool) :
    Sound installed forcePortable [] { cache := { forcePortable } } where
  cache := GrammarCache.faithful_empty installed forcePortable
  loader := Loader.faithful_empty installed
  counted := ⟨rfl, rfl⟩
  known := fun _ => ⟨fun _ => List.not_mem_nil, fun _ => rfl⟩
  answers := rfl
  loads := rfl
  apart := nofun
  backends := rfl

theorem mem_map_successes
    (hanswers : enquiry.answers =
      names.map fun name => (name, installed.grammar forcePortable name)) (name : String) :
    name ∈ enquiry.successes.map Prod.fst ↔
      name ∈ names ∧ ∃ loaded, installed.grammar forcePortable name = .ok loaded := by
  have hsuccess : ∀ other entry,
      success? other (installed.grammar forcePortable other) = some entry →
        entry.1 = other ∧ ∃ loaded, installed.grammar forcePortable other = .ok loaded := by
    intro other entry hentry
    rw [success?] at hentry
    cases hgrammar : installed.grammar forcePortable other with
    | error failure =>
        rw [hgrammar] at hentry
        cases hentry
    | ok loaded =>
        rw [hgrammar] at hentry
        exact ⟨Option.some.inj hentry ▸ rfl, loaded, rfl⟩
  rw [successes, hanswers, List.mem_map]
  constructor
  · rintro ⟨entry, hentry, rfl⟩
    obtain ⟨_, hmem, hentry⟩ := List.mem_filterMap.mp hentry
    obtain ⟨other, hother, rfl⟩ := List.mem_map.mp hmem
    obtain ⟨rfl, hok⟩ := hsuccess other entry hentry
    exact ⟨hother, hok⟩
  · rintro ⟨hname, loaded, hloaded⟩
    refine ⟨(name, loaded.backend), List.mem_filterMap.mpr ⟨_, List.mem_map_of_mem hname, ?_⟩, rfl⟩
    rw [hloaded]
    rfl

/-- What a name adds to the successes is among those that are listed already, unless it is new. -/
theorem firsts_successes
    (hanswers : enquiry.answers =
      names.map fun name => (name, installed.grammar forcePortable name)) (name : String) :
    firsts Prod.fst (enquiry.successes ++
        (success? name (installed.grammar forcePortable name)).toList) =
      firsts Prod.fst enquiry.successes ++
        if name ∈ names then [] else (success? name (installed.grammar forcePortable name)).toList := by
  have hmem := mem_map_successes hanswers name
  rw [success?]
  cases hgrammar : installed.grammar forcePortable name with
  | error failure => simp [Except.toOption]
  | ok loaded =>
      have hlisted : name ∈ enquiry.successes.map Prod.fst ↔ name ∈ names := by
        rw [hmem, hgrammar]
        exact and_iff_left ⟨loaded, rfl⟩
      simp only [Except.toOption, Option.map_some, Option.toList, firsts_append_singleton, hlisted]
      split
      · exact (List.append_nil _).symm
      · rfl

/-- A grammar of the table is looked for when its name is asked for the first time. -/
theorem firsts_isGrammar (names : List String) (name : String) :
    firsts id ((names ++ [name]).filter fun name => (GrammarSpec.find? name).isSome) =
      firsts id (names.filter fun name => (GrammarSpec.find? name).isSome) ++
        if name ∈ names then [] else (GrammarSpec.find? name).toList.map GrammarSpec.name := by
  rw [List.filter_append, List.filter_cons, List.filter_nil]
  cases hspec : GrammarSpec.find? name with
  | none => simp
  | some spec =>
      have hname : spec.name = name := by simpa using List.find?_some hspec
      have hlisted : name ∈ (names.filter fun name => (GrammarSpec.find? name).isSome).map id ↔
          name ∈ names := by
        simp [hspec]
      simp only [Option.isSome_some, if_true, firsts_append_singleton, id_eq, hlisted, Option.toList,
        List.map_cons, List.map_nil, hname]
      split
      · exact (List.append_nil _).symm
      · rfl

theorem backends_remember (cache : GrammarCache) (name : String)
    (outcome : Except Failure LoadedGrammar) :
    (cache.remember name outcome).backends = cache.backends ++ (success? name outcome).toList := by
  cases outcome with
  | error failure => exact (List.append_nil cache.backends).symm
  | ok loaded => exact List.map_append

theorem apart_remember {cache : GrammarCache} (hnew : cache.known? name = none)
    (hapart : ∀ other ∈ cache.loaded.map Prod.fst, other ∉ cache.failed.map Prod.fst)
    (outcome : Except Failure LoadedGrammar) :
    ∀ other ∈ (cache.remember name outcome).loaded.map Prod.fst,
      other ∉ (cache.remember name outcome).failed.map Prod.fst := by
  obtain ⟨hloaded, hfailed⟩ := GrammarCache.known?_eq_none_iff.mp hnew
  intro other hother
  cases outcome with
  | error failure =>
      simp only [GrammarCache.remember, GrammarCache.refuse, List.map_append, List.map_cons,
        List.map_nil, List.mem_append, List.mem_singleton, not_or] at hother ⊢
      exact ⟨hapart other hother, fun heq => hloaded (heq ▸ hother)⟩
  | ok loaded =>
      simp only [GrammarCache.remember, GrammarCache.keep, List.map_append, List.map_cons,
        List.map_nil, List.mem_append, List.mem_singleton] at hother ⊢
      rcases hother with hother | rfl
      · exact hapart other hother
      · exact hfailed

/-- What one more name does to an enquiry: it is answered, and if it is new, then it is looked for and
remembered. -/
theorem ask_spec (hsound : enquiry.Sound installed forcePortable names) (name : String) :
    ∃ loader', loader'.Faithful installed ∧ loader'.IsCounted ∧
      enquiry.ask installed name =
        ⟨if name ∈ names then enquiry.cache
          else enquiry.cache.remember name (installed.grammar forcePortable name), loader',
          enquiry.answers ++ [(name, installed.grammar forcePortable name)],
          enquiry.loads ++ if name ∈ names then []
            else (GrammarSpec.find? name).toList.map GrammarSpec.name⟩ := by
  obtain ⟨cache', loader', hget, -, hloader'⟩ :=
    GrammarCache.get_spec name hsound.cache hsound.loader
  have hfollows := GrammarCache.follows_get installed name enquiry.cache enquiry.loader
  rw [hget] at hfollows
  refine ⟨loader', hloader', hsound.counted.follows hfollows, ?_⟩
  rw [ask, GrammarCache.value_getBy_loadNoting, hget, GrammarCache.sought?]
  cases hknown : enquiry.cache.known? name with
  | some outcome =>
      have hold : name ∈ names := by
        refine Decidable.byContradiction fun hnew => ?_
        exact absurd (hknown.symm.trans ((hsound.known name).mpr hnew)) nofun
      have hcache : cache' = enquiry.cache := by
        rw [GrammarCache.get_of_known installed enquiry.loader hknown] at hget
        exact (Prod.mk.inj (Prod.mk.inj hget).2).1.symm
      simp only [hcache, if_pos hold, Option.toList, List.map_nil]
  | none =>
      have hnew : name ∉ names := (hsound.known name).mp hknown
      have hcache : cache' = enquiry.cache.remember name (installed.grammar forcePortable name) := by
        have hremember := GrammarCache.cache_of_new installed enquiry.loader hknown
        rwa [hget] at hremember
      simp only [hcache, if_neg hnew]

theorem sound_ask (hsound : enquiry.Sound installed forcePortable names) (name : String) :
    (enquiry.ask installed name).Sound installed forcePortable (names ++ [name]) := by
  obtain ⟨cache', _, hget, hcache', -⟩ := GrammarCache.get_spec name hsound.cache hsound.loader
  obtain ⟨loader', hloader', hcounted', hask⟩ := ask_spec hsound name
  have hfaithful : (enquiry.ask installed name).cache.Faithful installed forcePortable := by
    rw [ask, hget]
    exact hcache'
  have hsuccesses : (enquiry.ask installed name).successes =
      enquiry.successes ++ (success? name (installed.grammar forcePortable name)).toList := by
    rw [hask, successes, List.filterMap_append]
    rfl
  have hbackends := firsts_successes hsound.answers name
  rw [← hsuccesses] at hbackends
  have hanswers : enquiry.answers ++ [(name, installed.grammar forcePortable name)] =
      (names ++ [name]).map fun name => (name, installed.grammar forcePortable name) := by
    rw [hsound.answers, List.map_append]
    rfl
  have hloads := firsts_isGrammar names name
  have hnames : ∀ other, other ∉ names ++ [name] ↔ other ≠ name ∧ other ∉ names := by
    intro other
    rw [List.mem_append, List.mem_singleton, not_or, and_comm]
  rw [hask] at hfaithful hbackends ⊢
  rw [← hsound.loads] at hloads
  by_cases hold : name ∈ names
  · -- Nothing changes but the list of answers.
    simp only [if_pos hold, List.append_nil] at hfaithful hbackends hloads ⊢
    refine ⟨hfaithful, hloader', hcounted', ?_, hanswers, hloads.symm, hsound.apart, ?_⟩
    · intro other
      rw [hnames, hsound.known]
      exact ⟨fun hother => ⟨fun heq => hother (heq ▸ hold), hother⟩, And.right⟩
    · exact hsound.backends.trans hbackends.symm
  · have hnew : enquiry.cache.known? name = none := (hsound.known name).mpr hold
    simp only [if_neg hold] at hfaithful hbackends hloads ⊢
    refine ⟨hfaithful, hloader', hcounted', ?_, hanswers, hloads.symm,
      apart_remember hnew hsound.apart _, ?_⟩
    · intro other
      rw [hnames, GrammarCache.known?_remember hnew, ← hsound.known]
      by_cases hother : other = name <;> simp [hother]
    · rw [hbackends, backends_remember, hsound.backends]

theorem sound_ofNames (installed : Installation) (forcePortable : Bool) (names : List String) :
    (ofNames installed forcePortable names).Sound installed forcePortable names := by
  have hfold : ∀ later earlier enquiry, Sound installed forcePortable earlier enquiry →
      Sound installed forcePortable (earlier ++ later) (later.foldl (ask installed) enquiry) := by
    intro later
    induction later with
    | nil =>
        intro earlier enquiry hsound
        rwa [List.append_nil]
    | cons name later ih =>
        intro earlier enquiry hsound
        have hnext := ih (earlier ++ [name]) _ (sound_ask hsound name)
        rwa [List.append_assoc] at hnext
  exact hfold names [] _ (sound_new installed forcePortable)

/-- The answer for a grammar of the table is what its rules give. -/
theorem gives_of_mem_answers (hsound : enquiry.Sound installed forcePortable names)
    {spec : GrammarSpec} (hspec : spec ∈ GrammarSpec.table) {answer : Except Failure LoadedGrammar}
    (hanswer : (spec.name, answer) ∈ enquiry.answers) :
    spec.Gives installed forcePortable answer := by
  have htable : ∀ spec ∈ GrammarSpec.table, GrammarSpec.find? spec.name = some spec ∧
      spec.nativeModule ≠ some "" := by decide
  obtain ⟨hfind, hmodule⟩ := htable spec hspec
  rw [hsound.answers] at hanswer
  obtain ⟨name, -, hpair⟩ := List.mem_map.mp hanswer
  obtain ⟨rfl, rfl⟩ := Prod.mk.inj hpair
  rw [Installation.grammar, hfind]
  exact GrammarSpec.gives_resolve hmodule

/-- **Grammars are resolved once, and in no order.**  Whatever a new cache is asked for, each answer is
a function of the name, and for a grammar of the table the native grammar, else the portable one,
else a failure.  Each grammar is looked for once, and the core and the pack are examined at most once;
nothing is both loaded and failed, and the cache lists what was loaded in the order of first success.
-/
theorem resolves_once (installed : Installation) (forcePortable : Bool) (names : List String) :
    (ofNames installed forcePortable names).Settles installed forcePortable names := by
  have hsound := sound_ofNames installed forcePortable names
  have hruns : ∀ {α : Type} {cell : Once α}, cell.IsCounted → cell.runs ≤ 1 := by
    intro α cell hcell
    rw [hcell]
    cases cell.stored <;> simp
  refine ⟨hsound.answers, ?_, hsound.loads, ?_, hruns hsound.counted.backend,
    hruns hsound.counted.pack, hsound.apart, hsound.backends⟩
  · intro spec hspec answer hanswer
    exact gives_of_mem_answers hsound hspec hanswer
  · have hnodup := nodup_map_firsts id (names.filter fun name => (GrammarSpec.find? name).isSome)
    rwa [List.map_id, ← hsound.loads] at hnodup

end Enquiry
end TypeAtlas
