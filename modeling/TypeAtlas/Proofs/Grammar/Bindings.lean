import TypeAtlas.Proofs.Grammar.Pool
import TypeAtlas.Proofs.Results

/-!
# Parsers are bound to what is asked for

Every worker asks its own pool for parsers, and all of them share the grammars.  A pool binds a parser
anew only if its record says that the parser is bound to something else, so a record that is wrong
once would hand out parsers with the wrong grammar from then on.

A `Workbench` is what the workers have, and `Workbench.after` what they have after some demands.  That
a record is true of its pool is `ParserPool.Faithful`.  What else is needed of a pool is a single
equation: if it hands out a parser, then this parser is in the place of its language, and all others
are where they were (`parsers_of_parserFor_ok`).

`Workbench.hands_out_bound` is the main statement: whatever the workers asked for before, the next
demand is answered with the one parser of its language, bound to the grammar that the cache gives for
the name in this very demand; and a demand that is refused changes no pool.
-/

namespace TypeAtlas

/-! ## One pool -/

namespace ParserPool

/-- The languages that have a parser, in the order of creation. -/
def languages (pool : ParserPool) : List String := pool.parsers.map Prod.fst

variable {installed : Installation} {pool pool' : ParserPool} {cache cache' : GrammarCache}
  {loader loader' : Loader} {language name : String} {parser : Parser}

theorem obtain_cases {backend : Backend}
    (hobtain : (pool.obtain installed language backend loader).value =
      (.ok (parser, pool'), loader')) :
    (pool.parser? language = some parser ∧ pool' = pool) ∨
      parser = {} ∧ pool' = pool.put language {} := by
  rw [obtain] at hobtain
  cases hparser : pool.parser? language with
  | some earlier =>
      simp only [hparser, Logged.value_pure, Prod.mk.injEq, Except.ok.injEq] at hobtain
      obtain ⟨⟨rfl, rfl⟩, -⟩ := hobtain
      exact .inl ⟨rfl, rfl⟩
  | none =>
      simp only [hparser, Logged.value_bind, Logged.value_pure, Prod.mk.injEq] at hobtain
      obtain ⟨hcreated, -⟩ := hobtain
      obtain ⟨_, -, hnew⟩ := map_eq_ok_iff.mp hcreated
      obtain ⟨rfl, rfl⟩ := Prod.mk.inj hnew
      exact .inr ⟨rfl, rfl⟩

/-- Binding a parser that is in its place leaves the bound parser in this place. -/
theorem parsers_bind {loaded : LoadedGrammar} (hparser : pool.parser? language = some parser) :
    (pool.bind language parser name loaded).2.parsers =
      putEntry pool.parsers language (pool.bind language parser name loaded).1 := by
  rw [bind]
  split
  · exact (putEntry_of_lookup hparser).symm
  · rfl

/-- What asking for a parser can do to a pool: nothing if there is none to hand out, and else the
parser of the language, perhaps a new one, is bound. -/
theorem parserFor_cases {answer : Except ParserFault Parser}
    (hanswer : (pool.parserFor installed language name cache loader).value =
      (answer, pool', cache', loader')) :
    (∃ fault, answer = .error fault ∧ pool' = pool) ∨
      ∃ loaded earlier middle,
        ((pool.parser? language = some earlier ∧ middle = pool) ∨
          earlier = {} ∧ middle = pool.put language {}) ∧
        answer = .ok (middle.bind language earlier name loaded).1 ∧
          pool' = (middle.bind language earlier name loaded).2 := by
  rw [parserFor, Logged.value_bind] at hanswer
  generalize (cache.get installed name loader).value = asked at hanswer
  obtain ⟨outcome, asked⟩ := asked
  cases outcome with
  | error failure =>
      simp only [Logged.value_pure, Prod.mk.injEq] at hanswer
      exact .inl ⟨_, hanswer.1.symm, hanswer.2.1.symm⟩
  | ok loaded =>
      simp only [Logged.value_bind] at hanswer
      generalize hobtained : (pool.obtain installed language loaded.backend asked.2).value =
        obtained at hanswer
      obtain ⟨obtained, afterwards⟩ := obtained
      cases obtained with
      | error fault =>
          simp only [Logged.value_pure, Prod.mk.injEq] at hanswer
          exact .inl ⟨_, hanswer.1.symm, hanswer.2.1.symm⟩
      | ok found =>
          obtain ⟨earlier, middle⟩ := found
          simp only [Logged.value_pure, Prod.mk.injEq] at hanswer
          exact .inr ⟨loaded, earlier, middle, obtain_cases hobtained, hanswer.1.symm,
            hanswer.2.1.symm⟩

/-- **A pool that hands out a parser** is as it was before, but for this parser in its place. -/
theorem parsers_of_parserFor_ok
    (hok : (pool.parserFor installed language name cache loader).value =
      (.ok parser, pool', cache', loader')) :
    pool'.parsers = putEntry pool.parsers language parser := by
  rcases parserFor_cases hok with ⟨fault, hfault, -⟩ | ⟨loaded, earlier, middle, hplace, hbound, rfl⟩
  · cases hfault
  obtain rfl := Except.ok.inj hbound
  rcases hplace with ⟨hplace, rfl⟩ | ⟨rfl, rfl⟩
  · exact parsers_bind hplace
  · have hplace : (pool.put language {}).parser? language = some {} := by
      rw [parser?_put, if_pos (beq_self_eq_true language)]
    rw [parsers_bind hplace]
    exact putEntry_putEntry pool.parsers language {} _

/-- A pool that refuses to hand out a parser has not changed. -/
theorem pool_of_parserFor_error {fault : ParserFault}
    (herror : (pool.parserFor installed language name cache loader).value =
      (.error fault, pool', cache', loader')) : pool' = pool := by
  rcases parserFor_cases herror with ⟨_, -, hpool⟩ | ⟨_, _, _, -, hok, -⟩
  · exact hpool
  · cases hok

/-- What asking a pool for a parser of a language does to the pool. -/
structure Follows (pool : ParserPool) (language : String) (answer : Except ParserFault Parser)
    (pool' : ParserPool) : Prop where
  /-- A parser that is handed out is the one that the pool has for the language. -/
  own : ∀ parser, answer = .ok parser → pool'.parser? language = some parser
  /-- No language has two parsers. -/
  single : pool'.languages.Nodup
  /-- A language that had a parser still has this one. -/
  stays : ∀ other position, pool.position? other = some position →
    pool'.position? other = some position
  /-- The parsers of other languages are bound to what they were bound to. -/
  others : ∀ other, other ≠ language → pool'.parser? other = pool.parser? other
  /-- If there is no parser to hand out, then the parsers, their grammars and the record are as they
  were. -/
  refused : ∀ fault, answer = .error fault → pool' = pool

theorem position?_eq (pool : ParserPool) (language : String) :
    pool.position? language = pool.languages.findIdx? fun other => other == language := by
  rw [languages, List.findIdx?_map]
  rfl

theorem languages_of_putEntry (hparsers : pool'.parsers = putEntry pool.parsers language parser) :
    pool'.languages =
      if pool.languages.contains language then pool.languages
      else pool.languages ++ [language] := by
  rw [languages, hparsers, map_fst_putEntry]
  rfl

theorem follows_of_putEntry (hnodup : pool.languages.Nodup)
    (hparsers : pool'.parsers = putEntry pool.parsers language parser) :
    pool.Follows language (.ok parser) pool' := by
  have hlanguages := languages_of_putEntry hparsers
  have hfound : ∀ other, pool'.parser? other =
      if other == language then some parser else pool.parser? other := by
    intro other
    rw [parser?, hparsers, lookup_putEntry]
    rfl
  refine ⟨?_, ?_, ?_, ?_, ?_⟩
  · rintro _ ⟨rfl⟩
    rw [hfound, if_pos (beq_self_eq_true language)]
  · rw [hlanguages]
    split
    case isTrue => exact hnodup
    case isFalse hnew =>
      rw [List.contains_iff_mem] at hnew
      refine List.nodup_append.mpr ⟨hnodup, List.pairwise_singleton _ language, ?_⟩
      rintro other hother found hfound rfl
      exact hnew (List.mem_singleton.mp hfound ▸ hother)
  · intro other position hposition
    rw [position?_eq] at hposition ⊢
    rw [hlanguages]
    split
    · exact hposition
    · rw [List.findIdx?_append, hposition]
      rfl
  · intro other hother
    rw [hfound, if_neg (by simpa using hother)]
  · intro fault hfault
    cases hfault

theorem follows_refl (hnodup : pool.languages.Nodup) (fault : ParserFault) :
    pool.Follows language (.error fault) pool :=
  ⟨nofun, hnodup, fun _ _ hposition => hposition, fun _ _ => rfl, fun _ _ => rfl⟩

/-- **Asking a pool for a parser** changes the pool at most in the place of the language. -/
theorem follows_parserFor {answer : Except ParserFault Parser} (hnodup : pool.languages.Nodup)
    (hanswer : (pool.parserFor installed language name cache loader).value =
      (answer, pool', cache', loader')) : pool.Follows language answer pool' := by
  cases answer with
  | error fault =>
      obtain rfl := pool_of_parserFor_error hanswer
      exact follows_refl hnodup fault
  | ok parser => exact follows_of_putEntry hnodup (parsers_of_parserFor_ok hanswer)

end ParserPool

/-- A parser is bound to the grammar that its name is resolved to. -/
theorem Installation.exists_grammar_of_parser {installed : Installation} {forcePortable : Bool}
    {name : String} {parser : Parser} (hparser : installed.parser forcePortable name = .ok parser) :
    ∃ loaded, installed.grammar forcePortable name = .ok loaded ∧
      parser.grammar = some loaded.grammar := by
  rw [Installation.parser] at hparser
  cases hgrammar : installed.grammar forcePortable name with
  | error failure =>
      rw [hgrammar] at hparser
      cases hparser
  | ok loaded =>
      rw [hgrammar] at hparser
      cases himport : installed.parserImport with
      | error fault =>
          rw [himport] at hparser
          cases hparser
      | ok =>
          rw [himport] at hparser
          exact ⟨loaded, rfl, Except.ok.inj hparser ▸ rfl⟩

/-! ## All workers -/

/-- A demand for a parser: which worker needs it, for which language, and bound to which grammar. -/
structure ParserDemand where
  worker : Nat
  language : String
  grammar : String

/-- What the workers have: a pool each, and the grammars that they share. -/
structure Workbench where
  pools : Nat → ParserPool
  cache : GrammarCache
  loader : Loader

namespace Workbench

/-- Before anything was asked for. -/
def fresh (forcePortable : Bool) : Workbench := ⟨fun _ => {}, { forcePortable }, {}⟩

/-- With another pool for one worker. -/
def withPool (bench : Workbench) (worker : Nat) (pool : ParserPool) : Nat → ParserPool :=
  fun other => if other = worker then pool else bench.pools other

/-- What a worker gets that asks its pool, and what the workers have then. -/
def serve (installed : Installation) (bench : Workbench) (demand : ParserDemand) :
    Except ParserFault Parser × Workbench :=
  let (answer, pool, cache, loader) := ((bench.pools demand.worker).parserFor installed
    demand.language demand.grammar bench.cache bench.loader).value
  (answer, ⟨bench.withPool demand.worker pool, cache, loader⟩)

/-- What the workers have after some demands. -/
def after (installed : Installation) (bench : Workbench) (demands : List ParserDemand) :
    Workbench :=
  demands.foldl (fun bench demand => (bench.serve installed demand).2) bench

/-- A demand is answered as it should be. -/
structure HandsOutBound (installed : Installation) (bench : Workbench) (demand : ParserDemand)
    (answer : Except ParserFault Parser) (bench' : Workbench) : Prop where
  /-- There is a parser if the grammar can be loaded and the core has parsers. -/
  returns : answer = installed.parser bench.cache.forcePortable demand.grammar
  /-- A parser is bound to the grammar that the cache gives for the name at this very moment. -/
  bound : ∀ parser, answer = .ok parser →
    ∃ loaded, (bench.cache.get installed demand.grammar bench.loader).value.1 = .ok loaded ∧
      parser.grammar = some loaded.grammar
  /-- It is the single parser of its language, and nothing else in the pool has changed; if there is
  no parser to hand out, nothing has changed at all. -/
  pool : (bench.pools demand.worker).Follows demand.language answer (bench'.pools demand.worker)
  /-- The pools of other workers are not touched. -/
  apart : ∀ worker, worker ≠ demand.worker → bench'.pools worker = bench.pools worker

/-- What holds whenever nobody is asking: records are true, no language has two parsers, and what was
found out is what would be found out again. -/
structure Sound (installed : Installation) (forcePortable : Bool) (bench : Workbench) : Prop where
  pools : ∀ worker, (bench.pools worker).Faithful installed forcePortable
  single : ∀ worker, (bench.pools worker).languages.Nodup
  cache : bench.cache.Faithful installed forcePortable
  loader : bench.loader.Faithful installed

variable {installed : Installation} {forcePortable : Bool} {bench : Workbench}

theorem sound_fresh (installed : Installation) (forcePortable : Bool) :
    (fresh forcePortable).Sound installed forcePortable :=
  ⟨fun _ => ParserPool.faithful_empty installed forcePortable, fun _ => List.nodup_nil,
    GrammarCache.faithful_empty installed forcePortable, Loader.faithful_empty installed⟩

/-- What holds of the pool of one worker holds of all pools, if it held of them before. -/
theorem forall_withPool (holds : ParserPool → Prop) {worker : Nat} {pool : ParserPool}
    (hbefore : ∀ worker, holds (bench.pools worker)) (hpool : holds pool) (other : Nat) :
    holds (bench.withPool worker pool other) := by
  rw [withPool]
  split
  · exact hpool
  · exact hbefore other

theorem serve_spec (hbench : bench.Sound installed forcePortable) (demand : ParserDemand) :
    HandsOutBound installed bench demand (bench.serve installed demand).1
        (bench.serve installed demand).2 ∧
      (bench.serve installed demand).2.Sound installed forcePortable := by
  obtain ⟨pool', cache', loader', hanswer, hpool', hcache', hloader'⟩ :=
    ParserPool.parserFor_spec demand.language demand.grammar (hbench.pools demand.worker)
      hbench.cache hbench.loader
  have hserve : bench.serve installed demand =
      (installed.parser forcePortable demand.grammar,
        ⟨bench.withPool demand.worker pool', cache', loader'⟩) := by
    rw [serve, hanswer]
  have hfollows := ParserPool.follows_parserFor (hbench.single demand.worker) hanswer
  have hown : bench.withPool demand.worker pool' demand.worker = pool' := if_pos rfl
  rw [hserve]
  dsimp only
  refine ⟨⟨?_, ?_, ?_, ?_⟩, ⟨?_, ?_, hcache', hloader'⟩⟩
  · rw [hbench.cache.forced]
  · intro parser hparser
    obtain ⟨_, _, hget, -, -⟩ := GrammarCache.get_spec demand.grammar hbench.cache hbench.loader
    rw [hget]
    exact Installation.exists_grammar_of_parser hparser
  · simpa only [hown] using hfollows
  · intro worker hworker
    exact if_neg hworker
  · exact forall_withPool (·.Faithful installed forcePortable) hbench.pools hpool'
  · exact forall_withPool (·.languages.Nodup) hbench.single hfollows.single

theorem sound_after (hbench : bench.Sound installed forcePortable) (demands : List ParserDemand) :
    (bench.after installed demands).Sound installed forcePortable := by
  induction demands generalizing bench with
  | nil => exact hbench
  | cons demand demands ih => exact ih (serve_spec hbench demand).2

/-- **No parser is handed out with the wrong grammar.**  Whatever the workers asked for before, also
for grammars that are unknown or cannot be loaded, and for parsers that cannot be created, the next
demand is answered with the single parser of its language, bound to the grammar that the cache gives
for the name in this demand; and a demand that is refused changes no pool. -/
theorem hands_out_bound (installed : Installation) (forcePortable : Bool)
    (earlier : List ParserDemand) (demand : ParserDemand) :
    let bench := (fresh forcePortable).after installed earlier
    HandsOutBound installed bench demand (bench.serve installed demand).1
      (bench.serve installed demand).2 :=
  (serve_spec (sound_after (sound_fresh installed forcePortable) earlier) demand).1

end Workbench
end TypeAtlas
