import TypeAtlas.Grammar.Cache

/-!
# What a grammar is resolved to

`Installation.grammar` says without any state what comes of asking for a grammar: it depends on what
is installed, on whether portable grammars are forced, and on the name.  The cache and the loader
keep what they found earlier; `GrammarCache.Faithful` and `Loader.Faithful` say that all of it is what
would be found again.

Each operation has one lemma here: started from faithful findings it gives the stateless answer and
leaves faithful findings.  What was asked for before is thereby of no influence on any answer.
-/

namespace TypeAtlas

/-! ## Answers without state -/

namespace Installation

/-- The source of grammars that is preferred. -/
def preferredBackend (installed : Installation) : Backend :=
  match installed.coreFault? with
  | some _ => .portable
  | none => .native

/-- What comes of importing the core's class for parsers. -/
def parserImport (installed : Installation) : Except ImportFault Unit :=
  match installed.parserFault? with
  | some fault => .error fault
  | none => .ok ()

/-- What comes of creating a parser. -/
def parserOutcome (installed : Installation) (forcePortable : Bool) : Except ImportFault Unit := do
  if forcePortable || installed.preferredBackend = .portable then
    discard installed.pack?
  installed.parserImport

end Installation

namespace GrammarSpec

/-- The native module to try, if there is any. -/
def triedModule? (spec : GrammarSpec) (installed : Installation) (forcePortable : Bool) :
    Option String :=
  spec.module?.filter fun _ => !forcePortable && installed.preferredBackend = .native

/-- The grammar from its native module, if that is tried and works. -/
def nativeGrammar? (spec : GrammarSpec) (installed : Installation) (forcePortable : Bool) :
    Option Grammar :=
  (spec.triedModule? installed forcePortable).bind fun module =>
    (spec.fromNative installed module).toOption

/-- The grammar from the pack. -/
def packGrammar (spec : GrammarSpec) (installed : Installation) : Except Failure Grammar :=
  (installed.pack?.bind spec.fromPack).mapError spec.unavailable

/-- What comes of loading a grammar. -/
def resolve (spec : GrammarSpec) (installed : Installation) (forcePortable : Bool) :
    Except Failure LoadedGrammar :=
  match spec.nativeGrammar? installed forcePortable with
  | some grammar => .ok ⟨spec.name, grammar⟩
  | none => (spec.packGrammar installed).map fun grammar => ⟨spec.name, grammar⟩

end GrammarSpec

/-- What comes of asking for a grammar by its name. -/
def Installation.grammar (installed : Installation) (forcePortable : Bool) (name : String) :
    Except Failure LoadedGrammar :=
  match GrammarSpec.find? name with
  | none => .error (.unknownGrammar name)
  | some spec => spec.resolve installed forcePortable

/-! ## Findings -/

/-- What a loader has found out is what it would find out again. -/
structure Loader.Faithful (installed : Installation) (loader : Loader) : Prop where
  backend : ∀ backend ∈ loader.backend.stored, backend = installed.preferredBackend
  pack : ∀ pack ∈ loader.pack.stored, pack = installed.pack?

/-- What a cache keeps is what would be found again. -/
structure GrammarCache.Faithful (installed : Installation) (forcePortable : Bool)
    (cache : GrammarCache) : Prop where
  forced : cache.forcePortable = forcePortable
  known : ∀ name outcome, cache.known? name = some outcome →
    outcome = installed.grammar forcePortable name

theorem Loader.faithful_empty (installed : Installation) : Faithful installed {} :=
  ⟨nofun, nofun⟩

theorem GrammarCache.faithful_empty (installed : Installation) (forcePortable : Bool) :
    Faithful installed forcePortable { forcePortable } :=
  ⟨rfl, nofun⟩

theorem Once.value_get {cell : Once α} {factory : Nat → Logged α} {result : α}
    (hstored : ∀ stored ∈ cell.stored, stored = result)
    (hfactory : ∀ runs, (factory runs).value = result) :
    ∃ cell', (cell.get factory).value = (result, cell') ∧ cell'.stored = some result := by
  rw [get]
  cases hcell : cell.stored with
  | none =>
      simp only [Logged.value_bind, Logged.value_pure, hfactory]
      exact ⟨_, rfl, rfl⟩
  | some stored =>
      obtain rfl : stored = result := hstored stored hcell
      exact ⟨cell, rfl, hcell⟩

/-! ## Loading -/

namespace Loader

variable {installed : Installation} {loader : Loader}

theorem resolveBackend_spec (hloader : loader.Faithful installed) :
    ∃ loader', (resolveBackend installed loader).value = (installed.preferredBackend, loader') ∧
      loader'.Faithful installed := by
  have hdetect : (detect installed).value = installed.preferredBackend := by
    rw [detect, Installation.preferredBackend]
    cases installed.coreFault? <;> rfl
  obtain ⟨cell, hcell, hstored⟩ := Once.value_get hloader.backend fun _ => hdetect
  refine ⟨{ loader with backend := cell }, ?_, ?_, hloader.pack⟩
  · rw [resolveBackend, Logged.value_bind, hcell]
    rfl
  · intro backend hbackend
    exact (Option.some.inj (hstored.symm.trans hbackend)).symm

theorem openPack_spec (hloader : loader.Faithful installed) :
    ∃ loader', (openPack installed loader).value = (installed.pack?, loader') ∧
      loader'.Faithful installed := by
  have hopen : (open? installed).value = installed.pack? := by
    rw [open?]
    cases hpack : installed.pack? <;> rfl
  obtain ⟨cell, hcell, hstored⟩ := Once.value_get hloader.pack fun _ => hopen
  refine ⟨{ loader with pack := cell }, ?_, hloader.backend, ?_⟩
  · rw [openPack, Logged.value_bind, hcell]
    rfl
  · intro pack hpack
    exact (Option.some.inj (hstored.symm.trans hpack)).symm

theorem moduleToTry_spec (spec : GrammarSpec) (forcePortable : Bool)
    (hloader : loader.Faithful installed) :
    ∃ loader', (moduleToTry installed spec forcePortable loader).value =
        (spec.triedModule? installed forcePortable, loader') ∧ loader'.Faithful installed := by
  rw [moduleToTry, GrammarSpec.triedModule?]
  cases spec.module? with
  | none => exact ⟨loader, rfl, hloader⟩
  | some module =>
      cases forcePortable with
      | true => exact ⟨loader, rfl, hloader⟩
      | false =>
          obtain ⟨loader', hbackend, hloader'⟩ := resolveBackend_spec hloader
          refine ⟨loader', ?_, hloader'⟩
          simp only [Bool.false_eq_true, if_false, Logged.value_bind, hbackend, Logged.value_pure]
          cases installed.preferredBackend <;> rfl

theorem tryNative_spec (spec : GrammarSpec) (forcePortable : Bool)
    (hloader : loader.Faithful installed) :
    ∃ loader', (tryNative installed spec forcePortable loader).value =
        (spec.nativeGrammar? installed forcePortable, loader') ∧ loader'.Faithful installed := by
  obtain ⟨loader', hmodule, hloader'⟩ := moduleToTry_spec spec forcePortable hloader
  refine ⟨loader', ?_, hloader'⟩
  rw [tryNative, Logged.value_bind, hmodule, GrammarSpec.nativeGrammar?]
  cases spec.triedModule? installed forcePortable with
  | none => rfl
  | some module =>
      rw [Option.bind_some]
      cases hnative : spec.fromNative installed module <;> simp only [hnative] <;> rfl

theorem tryPack_spec (spec : GrammarSpec) (hloader : loader.Faithful installed) :
    ∃ loader', (tryPack installed spec loader).value = (spec.packGrammar installed, loader') ∧
      loader'.Faithful installed := by
  obtain ⟨loader', hpack, hloader'⟩ := openPack_spec hloader
  refine ⟨loader', ?_, hloader'⟩
  rw [tryPack, Logged.value_bind, hpack, GrammarSpec.packGrammar]
  cases hgrammar : installed.pack?.bind spec.fromPack <;> simp only [hgrammar] <;> rfl

theorem load_spec (spec : GrammarSpec) (forcePortable : Bool)
    (hloader : loader.Faithful installed) :
    ∃ loader', (load installed spec forcePortable loader).value =
        (spec.resolve installed forcePortable, loader') ∧ loader'.Faithful installed := by
  obtain ⟨afterNative, hnative, hafter⟩ := tryNative_spec spec forcePortable hloader
  rw [load, Logged.value_bind, hnative, GrammarSpec.resolve]
  cases spec.nativeGrammar? installed forcePortable with
  | some grammar => exact ⟨afterNative, rfl, hafter⟩
  | none =>
      obtain ⟨loader', hpack, hloader'⟩ := tryPack_spec spec hafter
      refine ⟨loader', ?_, hloader'⟩
      simp only [Logged.value_bind, hpack, Logged.value_pure]

theorem parserNeedsPack_spec (forcePortable : Bool) (hloader : loader.Faithful installed) :
    ∃ loader', (parserNeedsPack installed forcePortable loader).value =
        (forcePortable || installed.preferredBackend = .portable, loader') ∧
      loader'.Faithful installed := by
  rw [parserNeedsPack]
  cases forcePortable with
  | true => exact ⟨loader, rfl, hloader⟩
  | false =>
      obtain ⟨loader', hbackend, hloader'⟩ := resolveBackend_spec hloader
      refine ⟨loader', ?_, hloader'⟩
      simp only [Bool.false_eq_true, if_false, Logged.value_bind, hbackend, Logged.value_pure,
        Bool.false_or]

theorem openIfNeeded_spec (needed : Bool) (hloader : loader.Faithful installed) :
    ∃ loader', (openIfNeeded installed needed loader).value =
        (if needed then discard installed.pack? else .ok (), loader') ∧
      loader'.Faithful installed := by
  rw [openIfNeeded]
  cases needed with
  | false => exact ⟨loader, rfl, hloader⟩
  | true =>
      obtain ⟨loader', hpack, hloader'⟩ := openPack_spec hloader
      refine ⟨loader', ?_, hloader'⟩
      simp only [if_true, Logged.value_bind, hpack, Logged.value_pure]
      rfl

theorem createParser_spec (forcePortable : Bool) (hloader : loader.Faithful installed) :
    ∃ loader', (createParser installed forcePortable loader).value =
        (installed.parserOutcome forcePortable, loader') ∧ loader'.Faithful installed := by
  obtain ⟨detected, hneeded, hdetected⟩ := parserNeedsPack_spec forcePortable hloader
  obtain ⟨loader', hopened, hloader'⟩ := openIfNeeded_spec
    (forcePortable || installed.preferredBackend = .portable) hdetected
  refine ⟨loader', ?_, hloader'⟩
  rw [createParser, Logged.value_bind, hneeded, Logged.value_bind, hopened,
    Installation.parserOutcome, Installation.parserImport]
  cases forcePortable || decide (installed.preferredBackend = .portable) with
  | false => cases installed.parserFault? <;> rfl
  | true => cases installed.pack? <;> cases installed.parserFault? <;> rfl

end Loader

/-! ## Creating parsers for grammars that were loaded -/

namespace GrammarSpec

variable {spec : GrammarSpec} {installed : Installation} {forcePortable : Bool} {grammar : Grammar}

theorem of_nativeGrammar? (hnative : spec.nativeGrammar? installed forcePortable = some grammar) :
    grammar.backend = .native ∧ installed.preferredBackend = .native := by
  rw [nativeGrammar?, Option.bind_eq_some_iff] at hnative
  obtain ⟨module, hmodule, hgrammar⟩ := hnative
  rw [triedModule?, Option.filter_eq_some_iff] at hmodule
  constructor
  · simp only [fromNative] at hgrammar
    -- All ways through the imports but one end in a fault.
    repeat' split at hgrammar
    all_goals cases hgrammar
    rfl
  · simpa using (Bool.and_eq_true_iff.mp hmodule.2).2

theorem of_packGrammar (hpack : spec.packGrammar installed = .ok grammar) :
    grammar.backend = .portable ∧ ∃ pack, installed.pack? = .ok pack := by
  rw [packGrammar] at hpack
  cases hinstalled : installed.pack? with
  | error fault =>
      rw [hinstalled] at hpack
      cases hpack
  | ok pack =>
      rw [hinstalled] at hpack
      simp only [Except.bind, fromPack] at hpack
      split at hpack
      · exact ⟨Except.ok.inj hpack ▸ rfl, pack, rfl⟩
      · cases hpack

end GrammarSpec

namespace Installation

variable {installed : Installation} {forcePortable : Bool} {name : String} {loaded : LoadedGrammar}

/-- For a grammar that could be loaded nothing but the core's parsers can be missing: the pack is at
hand if the grammar is portable, and not needed if it is native. -/
theorem parserOutcome_of_grammar (hloaded : installed.grammar forcePortable name = .ok loaded) :
    installed.parserOutcome (loaded.backend = .portable) = installed.parserImport := by
  rw [grammar] at hloaded
  cases hspec : GrammarSpec.find? name with
  | none =>
      rw [hspec] at hloaded
      cases hloaded
  | some spec =>
      rw [hspec] at hloaded
      simp only [GrammarSpec.resolve] at hloaded
      cases hnative : spec.nativeGrammar? installed forcePortable with
      | some native =>
          rw [hnative] at hloaded
          obtain rfl := Except.ok.inj hloaded
          obtain ⟨hbackend, hpreferred⟩ := GrammarSpec.of_nativeGrammar? hnative
          rw [LoadedGrammar.backend, hbackend, parserOutcome, hpreferred]
          rfl
      | none =>
          rw [hnative] at hloaded
          cases hpack : spec.packGrammar installed with
          | error failure =>
              rw [hpack] at hloaded
              cases hloaded
          | ok portable =>
              rw [hpack] at hloaded
              obtain rfl := Except.ok.inj hloaded
              obtain ⟨hbackend, pack, hinstalled⟩ := GrammarSpec.of_packGrammar hpack
              rw [LoadedGrammar.backend, hbackend, parserOutcome, hinstalled]
              rfl

end Installation

/-! ## The cache -/

namespace GrammarCache

variable {installed : Installation} {forcePortable : Bool} {cache : GrammarCache} {loader : Loader}

theorem known?_keep {name : String} (hunknown : cache.known? name = none) (loaded : LoadedGrammar)
    (other : String) :
    (cache.keep name loaded).known? other =
      if other = name then some (.ok loaded) else cache.known? other := by
  by_cases hother : other = name
  · subst hother
    rw [known?] at hunknown
    cases hkept : cache.loaded.lookup other with
    | some earlier => simp [hkept] at hunknown
    | none => simp [known?, keep, List.lookup_append, hkept]
  · have hfirst : (other == name) = false := beq_false_of_ne hother
    simp [known?, keep, List.lookup_append, List.lookup_cons, hfirst, hother]

theorem known?_refuse {name : String} (hunknown : cache.known? name = none) (failure : Failure)
    (other : String) :
    (cache.refuse name failure).known? other =
      if other = name then some (.error failure) else cache.known? other := by
  by_cases hother : other = name
  · subst hother
    rw [known?] at hunknown
    cases hkept : cache.loaded.lookup other with
    | some earlier => simp [hkept] at hunknown
    | none =>
        rw [hkept] at hunknown
        simp [known?, refuse, List.lookup_append, hkept, Option.map_eq_none_iff.mp hunknown]
  · have hfirst : (other == name) = false := beq_false_of_ne hother
    simp [known?, refuse, List.lookup_append, List.lookup_cons, hfirst, hother]

theorem Faithful.keep {name : String} {loaded : LoadedGrammar}
    (hcache : cache.Faithful installed forcePortable) (hunknown : cache.known? name = none)
    (hloaded : installed.grammar forcePortable name = .ok loaded) :
    (cache.keep name loaded).Faithful installed forcePortable := by
  refine ⟨hcache.forced, ?_⟩
  intro other outcome hknown
  rw [known?_keep hunknown] at hknown
  split at hknown
  · subst other
    rw [hloaded, ← Option.some.inj hknown]
  · exact hcache.known other outcome hknown

theorem Faithful.refuse {name : String} {failure : Failure}
    (hcache : cache.Faithful installed forcePortable) (hunknown : cache.known? name = none)
    (hfailure : installed.grammar forcePortable name = .error failure) :
    (cache.refuse name failure).Faithful installed forcePortable := by
  refine ⟨hcache.forced, ?_⟩
  intro other outcome hknown
  rw [known?_refuse hunknown] at hknown
  split at hknown
  · subst other
    rw [hfailure, ← Option.some.inj hknown]
  · exact hcache.known other outcome hknown

theorem get_spec (name : String) (hcache : cache.Faithful installed forcePortable)
    (hloader : loader.Faithful installed) :
    ∃ cache' loader', (cache.get installed name loader).value =
        (installed.grammar forcePortable name, cache', loader') ∧
      cache'.Faithful installed forcePortable ∧ loader'.Faithful installed := by
  rw [get]
  cases hknown : cache.known? name with
  | some outcome =>
      rw [← hcache.known name outcome hknown]
      exact ⟨cache, loader, rfl, hcache, hloader⟩
  | none =>
      cases hspec : GrammarSpec.find? name with
      | none =>
          have hgrammar : installed.grammar forcePortable name = .error (.unknownGrammar name) := by
            rw [Installation.grammar, hspec]
          rw [hgrammar]
          exact ⟨_, loader, rfl, hcache.refuse hknown hgrammar, hloader⟩
      | some spec =>
          have hgrammar : installed.grammar forcePortable name =
              spec.resolve installed forcePortable := by
            rw [Installation.grammar, hspec]
          obtain ⟨loader', hload, hloader'⟩ := Loader.load_spec spec forcePortable hloader
          simp only [hcache.forced, Logged.value_bind, hload]
          cases hresolve : spec.resolve installed forcePortable with
          | error failure =>
              rw [hgrammar, hresolve]
              exact ⟨_, loader', rfl, hcache.refuse hknown (hgrammar.trans hresolve), hloader'⟩
          | ok loaded =>
              rw [hgrammar, hresolve]
              exact ⟨_, loader', rfl, hcache.keep hknown (hgrammar.trans hresolve), hloader'⟩

end GrammarCache

end TypeAtlas
