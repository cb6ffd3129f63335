import TypeAtlas.Grammar.ParserPool
import TypeAtlas.Proofs.Grammar.Resolution

/-!
# What a pool of parsers gives

`Installation.parser` says without any state what comes of asking a pool for a parser.  A pool is
`ParserPool.Faithful` if each binding of its record is the binding of the parser itself, and if there
is no parser where none can be created.  From such a pool `ParserPool.parserFor` gives the stateless
answer, whatever it created and bound before, and it stays faithful.
-/

namespace TypeAtlas

/-- What comes of asking for a parser that is bound to the grammar of a name. -/
def Installation.parser (installed : Installation) (forcePortable : Bool) (name : String) :
    Except ParserFault Parser :=
  match installed.grammar forcePortable name with
  | .error failure => .error (.noGrammar failure)
  | .ok loaded =>
    match installed.parserImport with
    | .error fault => .error (.noParser fault)
    | .ok () => .ok ⟨some loaded.grammar⟩

namespace ParserPool

/-- The record of a pool is true of its parsers, and these could be created. -/
structure Faithful (installed : Installation) (forcePortable : Bool) (pool : ParserPool) :
    Prop where
  bound : ∀ language name, pool.bound.lookup language = some name →
    ∃ loaded, installed.grammar forcePortable name = .ok loaded ∧
      pool.parser? language = some ⟨some loaded.grammar⟩
  created : ∀ language parser, pool.parser? language = some parser →
    installed.parserImport = .ok ()

theorem faithful_empty (installed : Installation) (forcePortable : Bool) :
    Faithful installed forcePortable {} :=
  ⟨nofun, nofun⟩

variable {installed : Installation} {forcePortable : Bool} {pool : ParserPool}
  {cache : GrammarCache} {loader : Loader} {name : String} {loaded : LoadedGrammar}

theorem parser?_put (pool : ParserPool) (language other : String) (parser : Parser) :
    (pool.put language parser).parser? other =
      if other == language then some parser else pool.parser? other :=
  lookup_putEntry pool.parsers language other parser

/-- A parser for a language that has none is bound to nothing, and so is the language's record. -/
theorem Faithful.put {language : String} (hpool : pool.Faithful installed forcePortable)
    (hnew : pool.parser? language = none) (himport : installed.parserImport = .ok ()) :
    (pool.put language {}).Faithful installed forcePortable := by
  refine ⟨?_, fun _ _ _ => himport⟩
  intro other name hbound
  obtain ⟨loaded, hloaded, hparser⟩ := hpool.bound other name hbound
  -- The record names only languages that have a parser, so the new one is not among them.
  have hother : other ≠ language := by
    rintro rfl
    exact absurd (hnew.symm.trans hparser) nofun
  refine ⟨loaded, hloaded, ?_⟩
  rw [parser?_put, if_neg (by simpa using hother), hparser]

theorem obtain_of_import (language : String) (hpool : pool.Faithful installed forcePortable)
    (hloader : loader.Faithful installed)
    (hloaded : installed.grammar forcePortable name = .ok loaded)
    (himport : installed.parserImport = .ok ()) :
    ∃ parser pool' loader',
      (pool.obtain installed language loaded.backend loader).value = (.ok (parser, pool'), loader') ∧
        pool'.parser? language = some parser ∧ pool'.Faithful installed forcePortable ∧
        loader'.Faithful installed := by
  rw [obtain]
  cases hparser : pool.parser? language with
  | some parser => exact ⟨parser, pool, loader, rfl, hparser, hpool, hloader⟩
  | none =>
      obtain ⟨loader', hcreated, hloader'⟩ :=
        Loader.createParser_spec (decide (loaded.backend = .portable)) hloader
      rw [Installation.parserOutcome_of_grammar hloaded, himport] at hcreated
      refine ⟨{}, pool.put language {}, loader', ?_, ?_, hpool.put hparser himport, hloader'⟩
      · simp only [Logged.value_bind, hcreated, Logged.value_pure]
        rfl
      · rw [parser?_put, if_pos (beq_self_eq_true language)]

theorem obtain_of_import_error (language : String) {fault : ImportFault}
    (hpool : pool.Faithful installed forcePortable)
    (hloader : loader.Faithful installed)
    (hloaded : installed.grammar forcePortable name = .ok loaded)
    (himport : installed.parserImport = .error fault) :
    ∃ loader', (pool.obtain installed language loaded.backend loader).value =
      (.error fault, loader') ∧ loader'.Faithful installed := by
  rw [obtain]
  cases hparser : pool.parser? language with
  | some parser => exact absurd (himport.symm.trans (hpool.created language parser hparser)) nofun
  | none =>
      obtain ⟨loader', hcreated, hloader'⟩ :=
        Loader.createParser_spec (decide (loaded.backend = .portable)) hloader
      rw [Installation.parserOutcome_of_grammar hloaded, himport] at hcreated
      refine ⟨loader', ?_, hloader'⟩
      simp only [Logged.value_bind, hcreated, Logged.value_pure]
      rfl

theorem bind_spec {language : String} {parser : Parser} (hpool : pool.Faithful installed forcePortable)
    (hparser : pool.parser? language = some parser)
    (hloaded : installed.grammar forcePortable name = .ok loaded) :
    ∃ pool', pool.bind language parser name loaded = (⟨some loaded.grammar⟩, pool') ∧
      pool'.Faithful installed forcePortable := by
  rw [bind]
  by_cases hbound : pool.bound.lookup language = some name
  · rw [if_pos hbound]
    -- The record says that nothing is to be done, and the parser agrees.
    obtain ⟨bound, hgrammar, hfound⟩ := hpool.bound language name hbound
    obtain rfl : loaded = bound := Except.ok.inj (hloaded.symm.trans hgrammar)
    obtain rfl : parser = ⟨some loaded.grammar⟩ := Option.some.inj (hparser.symm.trans hfound)
    exact ⟨pool, rfl, hpool⟩
  · rw [if_neg hbound]
    refine ⟨_, rfl, ?_, fun _ _ _ => hpool.created language parser hparser⟩
    intro other name hrecord
    simp only [parser?, lookup_putEntry] at hrecord ⊢
    by_cases hother : (other == language) = true
    · rw [if_pos hother] at hrecord ⊢
      obtain rfl := Option.some.inj hrecord
      exact ⟨loaded, hloaded, rfl⟩
    · rw [if_neg hother] at hrecord ⊢
      exact hpool.bound other name hrecord

/-- **A pool gives what a new pool would give**, and goes on doing so. -/
theorem parserFor_spec (language name : String) (hpool : pool.Faithful installed forcePortable)
    (hcache : cache.Faithful installed forcePortable) (hloader : loader.Faithful installed) :
    ∃ pool' cache' loader', (pool.parserFor installed language name cache loader).value =
        (installed.parser forcePortable name, pool', cache', loader') ∧
      pool'.Faithful installed forcePortable ∧ cache'.Faithful installed forcePortable ∧
      loader'.Faithful installed := by
  obtain ⟨cache', asked, hget, hcache', hasked⟩ := GrammarCache.get_spec name hcache hloader
  rw [parserFor, Logged.value_bind, hget, Installation.parser]
  cases hgrammar : installed.grammar forcePortable name with
  | error failure => exact ⟨pool, cache', asked, rfl, hpool, hcache', hasked⟩
  | ok loaded =>
      cases himport : installed.parserImport with
      | error fault =>
          obtain ⟨loader', hobtain, hloader'⟩ :=
            obtain_of_import_error language hpool hasked hgrammar himport
          refine ⟨pool, cache', loader', ?_, hpool, hcache', hloader'⟩
          simp only [Logged.value_bind, hobtain, Logged.value_pure]
      | ok =>
          obtain ⟨parser, obtained, loader', hobtain, hparser, hobtained, hloader'⟩ :=
            obtain_of_import language hpool hasked hgrammar himport
          obtain ⟨pool', hbind, hpool'⟩ := bind_spec hobtained hparser hgrammar
          refine ⟨pool', cache', loader', ?_, hpool', hcache', hloader'⟩
          simp only [Logged.value_bind, hobtain, hbind, Logged.value_pure]

end ParserPool
end TypeAtlas
