import TypeAtlas.Proofs.Batch.Patience
import TypeAtlas.Proofs.Batch.Sequences

/-!
# What each file adds to a batch

A batch that is not cancelled accounts for every file once.  `BatchSetup.Gives` says of a file, and of
those before it, what its share in the result is: its declarations, or the diagnostic of its failure,
or nothing because it is skipped.  The one thing about the files before it that matters is whether they
have asked for the same missing grammar; then the file that asks for it again is skipped without a
report.  The result is the sum of the shares in the order of the files (`runBatch_settles`).
-/

namespace TypeAtlas

/-- What one file adds to the result of its batch. -/
inductive Share where
  /-- The file is skipped, perhaps with a report that its grammar is missing. -/
  | skipped (report : Option Diagnostic)
  /-- It could not be parsed, or its declarations not be read. -/
  | failed (diagnostic : Diagnostic)
  /-- Its declarations. -/
  | read (fragment : Fragment)

namespace Share

def fragment : Share → Fragment
  | .read fragment => fragment
  | _ => {}

def diagnostics : Share → List Diagnostic
  | .skipped report => report.toList
  | .failed diagnostic => [diagnostic]
  | .read _ => []

def isProcessed : Share → Bool
  | .skipped _ => false
  | _ => true

end Share

namespace BatchResult

/-- The result that shares add up to. -/
def ofShares (shares : List Share) : BatchResult where
  nodes := shares.flatMap fun share => share.fragment.nodes
  edges := shares.flatMap fun share => share.fragment.edges
  diagnostics := shares.flatMap Share.diagnostics
  processed := shares.countP Share.isProcessed
  skipped := shares.countP (!·.isProcessed)

/-! ## Outcomes as shares -/

/-- The shares of outcomes after some grammars have been reported as missing. -/
def sharesAfter (reported : List String) : List Outcome → List Share
  | [] => []
  | .noGrammar grammar diagnostic :: rest =>
    if reported.contains grammar then .skipped none :: sharesAfter reported rest
    else .skipped (some diagnostic) :: sharesAfter (grammar :: reported) rest
  | .failed diagnostic :: rest => .failed diagnostic :: sharesAfter reported rest
  | .extracted fragment :: rest => .read fragment :: sharesAfter reported rest
  | _ :: rest => .skipped none :: sharesAfter reported rest

theorem flatMap_diagnostics_sharesAfter (reported : List String) (outcomes : List Outcome) :
    (sharesAfter reported outcomes).flatMap Share.diagnostics =
      diagnosticsAfter reported outcomes := by
  induction outcomes generalizing reported with
  | nil => rfl
  | cons outcome outcomes ih =>
      cases outcome with
      | noGrammar grammar diagnostic =>
          rw [sharesAfter, diagnosticsAfter]
          split
          · exact ih reported
          · exact congrArg (diagnostic :: ·) (ih _)
      | failed diagnostic => exact congrArg (diagnostic :: ·) (ih reported)
      | _ => exact ih reported

/-- An outcome and its share have the same declarations, and are processed alike. -/
theorem map_sharesAfter (reported : List String) (outcomes : List Outcome) :
    (sharesAfter reported outcomes).map (fun share => (share.fragment, share.isProcessed)) =
      outcomes.map fun outcome => (outcome.fragment, outcome.isProcessed) := by
  induction outcomes generalizing reported with
  | nil => rfl
  | cons outcome outcomes ih =>
      cases outcome with
      | noGrammar grammar diagnostic =>
          rw [sharesAfter]
          split <;> exact congrArg (_ :: ·) (ih _)
      | _ => exact congrArg (_ :: ·) (ih reported)

theorem flatMap_sharesAfter (part : Fragment → List α) (reported : List String)
    (outcomes : List Outcome) :
    ((sharesAfter reported outcomes).flatMap fun share => part share.fragment) =
      outcomes.flatMap fun outcome => part outcome.fragment := by
  have hshares := congrArg (List.flatMap fun both => part both.1) (map_sharesAfter reported outcomes)
  rwa [List.flatMap_map, List.flatMap_map] at hshares

theorem countP_sharesAfter (counts : Bool → Bool) (reported : List String)
    (outcomes : List Outcome) :
    ((sharesAfter reported outcomes).countP fun share => counts share.isProcessed) =
      outcomes.countP fun outcome => counts outcome.isProcessed := by
  have hshares := congrArg (List.countP fun both => counts both.2) (map_sharesAfter reported outcomes)
  rwa [List.countP_map, List.countP_map] at hshares

/-- Outcomes without marks come to what their shares add up to. -/
theorem ofOutcomes_eq_ofShares {outcomes : List Outcome}
    (houtcomes : ∀ outcome ∈ outcomes, outcome.isCancelled = false) :
    ofOutcomes outcomes = ofShares (sharesAfter [] outcomes) := by
  have hskipped : outcomes.countP Outcome.isSkipped = outcomes.countP (!·.isProcessed) := by
    apply List.countP_congr
    intro outcome houtcome
    have hunmarked := houtcomes outcome houtcome
    cases outcome <;> simp_all [Outcome.isSkipped, Outcome.isProcessed, Outcome.isCancelled]
  simp only [ofOutcomes, ofShares, hskipped, Outcome.any_isCancelled_eq_false houtcomes,
    flatMap_diagnostics_sharesAfter, flatMap_sharesAfter Fragment.nodes,
    flatMap_sharesAfter Fragment.edges, countP_sharesAfter (fun processed => processed),
    countP_sharesAfter not]

end BatchResult

namespace BatchSetup

/-! ## The shares of files -/

/-- Whether a file is to be parsed with a grammar. -/
def asks (setup : BatchSetup) (grammar : String) (file : SourceFile) : Bool :=
  (Language.dispatch file.path setup.languages).any fun language =>
    language.extractor.grammarFor file.path = grammar

/-- Whether a file has an admitted language whose grammar can be loaded. -/
def serves (setup : BatchSetup) (forcePortable : Bool) (file : SourceFile) : Bool :=
  (Language.dispatch file.path setup.languages).any fun language =>
    (setup.installed.grammar forcePortable (language.extractor.grammarFor file.path)).isOk

/-- What a file adds to the result of a batch, after some earlier files. -/
inductive Gives (setup : BatchSetup) (forcePortable : Bool) (earlier : List SourceFile)
    (file : SourceFile) : Share → Prop where
  | unsupported (hlanguage : Language.dispatch file.path setup.languages = none) :
      Gives setup forcePortable earlier file (.skipped none)
  /-- The first file that asks for a missing grammar reports it. -/
  | missing {language failure}
      (hlanguage : Language.dispatch file.path setup.languages = some language)
      (hgrammar : setup.installed.grammar forcePortable
        (language.extractor.grammarFor file.path) = .error failure)
      (hfirst : ¬ earlier.any (setup.asks (language.extractor.grammarFor file.path)) = true) :
      Gives setup forcePortable earlier file
        (.skipped (some ⟨file.path, language.name, .grammar, failure.message⟩))
  | missingAgain {language failure}
      (hlanguage : Language.dispatch file.path setup.languages = some language)
      (hgrammar : setup.installed.grammar forcePortable
        (language.extractor.grammarFor file.path) = .error failure)
      (hagain : earlier.any (setup.asks (language.extractor.grammarFor file.path)) = true) :
      Gives setup forcePortable earlier file (.skipped none)
  | unparsed {language loaded message}
      (hlanguage : Language.dispatch file.path setup.languages = some language)
      (hgrammar : setup.installed.grammar forcePortable
        (language.extractor.grammarFor file.path) = .ok loaded)
      (hparse : setup.parse loaded.grammar file.content = .error message) :
      Gives setup forcePortable earlier file (.failed ⟨file.path, language.name, .parse,
        (FailureCause.extraction file.path message).message⟩)
  | unread {language loaded tree fault}
      (hlanguage : Language.dispatch file.path setup.languages = some language)
      (hgrammar : setup.installed.grammar forcePortable
        (language.extractor.grammarFor file.path) = .ok loaded)
      (hparse : setup.parse loaded.grammar file.content = .ok tree)
      (hextract : language.extractor.extract tree file.path = .error fault) :
      Gives setup forcePortable earlier file (.failed ⟨file.path, language.name, .extract,
        (FailureCause.extraction file.path fault.message).message⟩)
  | read {language loaded tree fragment}
      (hlanguage : Language.dispatch file.path setup.languages = some language)
      (hgrammar : setup.installed.grammar forcePortable
        (language.extractor.grammarFor file.path) = .ok loaded)
      (hparse : setup.parse loaded.grammar file.content = .ok tree)
      (hextract : language.extractor.extract tree file.path = .ok fragment) :
      Gives setup forcePortable earlier file (.read fragment)

/-- What files add to the result of a batch one after the other, after some earlier files. -/
inductive GivesAll (setup : BatchSetup) (forcePortable : Bool) :
    List SourceFile → List SourceFile → List Share → Prop where
  | nil {earlier} : GivesAll setup forcePortable earlier [] []
  | cons {earlier file files share shares} (hfirst : setup.Gives forcePortable earlier file share)
      (hrest : GivesAll setup forcePortable (earlier ++ [file]) files shares) :
      GivesAll setup forcePortable earlier (file :: files) (share :: shares)

variable {setup : BatchSetup} {forcePortable : Bool} {earlier files : List SourceFile}
  {file : SourceFile} {share : Share} {shares : List Share} {pool : ParserPool} {shared : Shared}

theorem asks_eq_of_dispatch {language : Language} {grammar : String}
    (hlanguage : Language.dispatch file.path setup.languages = some language) :
    setup.asks grammar file = decide (language.extractor.grammarFor file.path = grammar) := by
  rw [asks, hlanguage, Option.any_some]

theorem Gives.isProcessed_eq (hgives : setup.Gives forcePortable earlier file share) :
    share.isProcessed = setup.serves forcePortable file := by
  cases hgives <;> simp_all [serves, Share.isProcessed, Except.isOk, Except.toBool]

theorem GivesAll.countP_isProcessed (counts : Bool → Bool)
    (hgives : setup.GivesAll forcePortable earlier files shares) :
    (shares.countP fun share => counts share.isProcessed) =
      files.countP fun file => counts (setup.serves forcePortable file) := by
  induction hgives with
  | nil => rfl
  | cons hfirst hrest ih => rw [List.countP_cons, List.countP_cons, ih, hfirst.isProcessed_eq]

/-- What has been reported as missing are the missing grammars that earlier files asked for. -/
def Reported (setup : BatchSetup) (forcePortable : Bool) (earlier : List SourceFile)
    (reported : List String) : Prop :=
  ∀ grammar, grammar ∈ reported ↔
    (∃ failure, setup.installed.grammar forcePortable grammar = .error failure) ∧
      earlier.any (setup.asks grammar) = true

theorem Reported.append {reported reportedToo : List String}
    (hreported : setup.Reported forcePortable earlier reported)
    (hfile : ∀ grammar, grammar ∈ reportedToo ↔ grammar ∈ reported ∨
      (∃ failure, setup.installed.grammar forcePortable grammar = .error failure) ∧
        setup.asks grammar file = true) :
    setup.Reported forcePortable (earlier ++ [file]) reportedToo := by
  intro grammar
  rw [hfile, hreported, List.any_append, Bool.or_eq_true, and_or_left, List.any_cons, List.any_nil,
    Bool.or_false]

/-- A file that asks for no missing grammar leaves the reported ones. -/
theorem Reported.append_of_forall {reported : List String}
    (hreported : setup.Reported forcePortable earlier reported)
    (hfile : ∀ grammar failure, setup.installed.grammar forcePortable grammar = .error failure →
      setup.asks grammar file = false) :
    setup.Reported forcePortable (earlier ++ [file]) reported := by
  refine hreported.append fun grammar => (or_iff_left ?_).symm
  rintro ⟨⟨failure, hfailure⟩, hasks⟩
  rw [hfile grammar failure hfailure] at hasks
  cases hasks

theorem asks_eq_false_of_loaded {language : Language} {loaded : LoadedGrammar}
    (hlanguage : Language.dispatch file.path setup.languages = some language)
    (hgrammar : setup.installed.grammar forcePortable
      (language.extractor.grammarFor file.path) = .ok loaded) :
    ∀ grammar failure, setup.installed.grammar forcePortable grammar = .error failure →
      setup.asks grammar file = false := by
  intro grammar failure hfailure
  rw [asks_eq_of_dispatch hlanguage, decide_eq_false_iff_not]
  rintro rfl
  exact absurd (hgrammar.symm.trans hfailure) nofun

/-- The outcomes of files come to the shares that the files have. -/
theorem givesAll_sharesAfter {outcomes : List Outcome} {reported : List String}
    (hreported : setup.Reported forcePortable earlier reported)
    (houtcomes : files.mapM (setup.verdict forcePortable) = .ok outcomes) :
    setup.GivesAll forcePortable earlier files (BatchResult.sharesAfter reported outcomes) := by
  rw [mapM_eq_ok_iff] at houtcomes
  induction files generalizing earlier reported outcomes with
  | nil =>
      obtain rfl := List.map_eq_nil_iff.mp houtcomes.symm
      exact .nil
  | cons file files ih =>
      obtain ⟨outcome, rest, rfl, hverdict, hrest⟩ := List.map_eq_cons_iff.mp houtcomes.symm
      have hjudged := setup.judged forcePortable file
      rw [← hverdict] at hjudged
      cases hjudged with
      | unsupported hlanguage =>
          have hasks : ∀ grammar, setup.asks grammar file = false := fun grammar => by
            rw [asks, hlanguage, Option.any_none]
          exact .cons (.unsupported hlanguage)
            (ih (hreported.append_of_forall fun grammar _ _ => hasks grammar) hrest.symm)
      | missing hlanguage hgrammar =>
          rename_i language failure
          rw [BatchResult.sharesAfter]
          split
          case isTrue hknown =>
            have hagain := (hreported _).mp (List.contains_iff_mem.mp hknown)
            refine .cons (.missingAgain hlanguage hgrammar hagain.2) (ih ?_ hrest.symm)
            refine hreported.append fun grammar => (or_iff_left_of_imp ?_).symm
            rintro ⟨-, hasks⟩
            rw [asks_eq_of_dispatch hlanguage, decide_eq_true_iff] at hasks
            exact hasks ▸ List.contains_iff_mem.mp hknown
          case isFalse hnew =>
            have hfirst : ¬ earlier.any
                (setup.asks (language.extractor.grammarFor file.path)) = true := fun hasked =>
              hnew (List.contains_iff_mem.mpr ((hreported _).mpr ⟨⟨_, hgrammar⟩, hasked⟩))
            refine .cons (.missing hlanguage hgrammar hfirst) (ih ?_ hrest.symm)
            refine hreported.append fun grammar => ?_
            rw [List.mem_cons, or_comm, asks_eq_of_dispatch hlanguage, decide_eq_true_iff]
            refine or_congr_right ⟨?_, fun hasks => hasks.2.symm⟩
            rintro rfl
            exact ⟨⟨_, hgrammar⟩, rfl⟩
      | unparsed hlanguage hgrammar hparse =>
          exact .cons (.unparsed hlanguage hgrammar hparse)
            (ih (hreported.append_of_forall (asks_eq_false_of_loaded hlanguage hgrammar)) hrest.symm)
      | unread hlanguage hgrammar hparse hextract =>
          exact .cons (.unread hlanguage hgrammar hparse hextract)
            (ih (hreported.append_of_forall (asks_eq_false_of_loaded hlanguage hgrammar)) hrest.symm)
      | read hlanguage hgrammar hparse hextract =>
          exact .cons (.read hlanguage hgrammar hparse hextract)
            (ih (hreported.append_of_forall (asks_eq_false_of_loaded hlanguage hgrammar)) hrest.symm)

/-! ## Reports of missing grammars -/

/-- The diagnostics that report a grammar as missing. -/
def reportsOf (grammar : String) (diagnostics : List Diagnostic) : List Diagnostic :=
  diagnostics.filter (·.missingGrammar? = some grammar)

theorem missingGrammar?_of_failure {grammar path language : String} {failure : Failure}
    (hfailure : setup.installed.grammar forcePortable grammar = .error failure) :
    Diagnostic.missingGrammar? ⟨path, language, .grammar, failure.message⟩ = some grammar := by
  rw [Failure.message, Installation.cause_of_grammar_eq_error hfailure]
  exact Diagnostic.missingGrammar?_grammarUnavailable _ _ _

/-- The first file that asks for a missing grammar reports it, once. -/
theorem Gives.reportsOf_of_first {grammar : String} {failure : Failure}
    (hfailure : setup.installed.grammar forcePortable grammar = .error failure)
    (hasks : setup.asks grammar file = true) (hfirst : ¬ earlier.any (setup.asks grammar) = true)
    (hgives : setup.Gives forcePortable earlier file share) :
    ∃ language, Language.dispatch file.path setup.languages = some language ∧
      reportsOf grammar share.diagnostics =
        [⟨file.path, language.name, .grammar, failure.message⟩] := by
  cases hgives with
  | unsupported hlanguage =>
      rw [asks, hlanguage] at hasks
      cases hasks
  | missing hlanguage hgrammar =>
      rw [asks_eq_of_dispatch hlanguage, decide_eq_true_iff] at hasks
      subst hasks
      obtain rfl := Except.error.inj (hgrammar.symm.trans hfailure)
      refine ⟨_, hlanguage, List.filter_cons_of_pos ?_⟩
      rw [decide_eq_true_iff]
      exact missingGrammar?_of_failure hgrammar
  | missingAgain hlanguage hgrammar hagain =>
      rw [asks_eq_of_dispatch hlanguage, decide_eq_true_iff] at hasks
      exact absurd (hasks ▸ hagain) hfirst
  | unparsed hlanguage hgrammar | unread hlanguage hgrammar | read hlanguage hgrammar =>
      rw [asks_eq_false_of_loaded hlanguage hgrammar grammar failure hfailure] at hasks
      cases hasks

/-- No other file reports it. -/
theorem Gives.reportsOf_of_not_first {grammar : String}
    (hlater : setup.asks grammar file = true → earlier.any (setup.asks grammar) = true)
    (hgives : setup.Gives forcePortable earlier file share) :
    reportsOf grammar share.diagnostics = [] := by
  cases hgives with
  | missing hlanguage hgrammar hfirst =>
      refine List.filter_cons_of_neg ?_
      rw [decide_eq_true_iff, missingGrammar?_of_failure hgrammar, Option.some.injEq]
      rintro rfl
      exact hfirst (hlater (by rw [asks_eq_of_dispatch hlanguage, decide_eq_true_iff]))
  | _ => rfl

theorem reportsOf_append (grammar : String) (diagnostics more : List Diagnostic) :
    reportsOf grammar (diagnostics ++ more) =
      reportsOf grammar diagnostics ++ reportsOf grammar more :=
  List.filter_append diagnostics more

theorem GivesAll.reportsOf_of_asked {grammar : String}
    (hasked : earlier.any (setup.asks grammar) = true)
    (hgives : setup.GivesAll forcePortable earlier files shares) :
    reportsOf grammar (shares.flatMap Share.diagnostics) = [] := by
  induction hgives with
  | nil => rfl
  | cons hfirst hrest ih =>
      rw [List.flatMap_cons, reportsOf_append, hfirst.reportsOf_of_not_first fun _ => hasked,
        List.nil_append, ih (by rw [List.any_append, hasked, Bool.true_or])]

theorem GivesAll.reportsOf_of_find {grammar : String} {failure : Failure}
    (hfailure : setup.installed.grammar forcePortable grammar = .error failure)
    (hnew : ¬ earlier.any (setup.asks grammar) = true)
    (hfind : files.find? (setup.asks grammar) = some file)
    (hgives : setup.GivesAll forcePortable earlier files shares) :
    ∃ language, Language.dispatch file.path setup.languages = some language ∧
      reportsOf grammar (shares.flatMap Share.diagnostics) =
        [⟨file.path, language.name, .grammar, failure.message⟩] := by
  induction hgives with
  | nil => cases hfind
  | cons hfirst hrest ih =>
      rename_i earlier first rest share shares
      rw [List.flatMap_cons, reportsOf_append]
      cases hasks : setup.asks grammar first with
      | true =>
          rw [List.find?_cons_of_pos hasks] at hfind
          obtain rfl := Option.some.inj hfind
          obtain ⟨language, hlanguage, hreport⟩ := hfirst.reportsOf_of_first hfailure hasks hnew
          have hasked : (earlier ++ [first]).any (setup.asks grammar) = true := by
            rw [List.any_append, List.any_cons, hasks, Bool.true_or, Bool.or_true]
          exact ⟨language, hlanguage, by rw [hreport, hrest.reportsOf_of_asked hasked]; rfl⟩
      | false =>
          rw [List.find?_cons_of_neg (by rw [hasks]; exact Bool.false_ne_true)] at hfind
          have hnone : reportsOf grammar share.diagnostics = [] :=
            hfirst.reportsOf_of_not_first fun htrue => absurd (hasks.symm.trans htrue) nofun
          rw [hnone, List.nil_append]
          refine ih ?_ hfind
          rw [List.any_append, List.any_cons, hasks, List.any_nil, Bool.or_false, Bool.or_false]
          exact hnew

/-! ## Batches that are not cancelled -/

/-- What comes of the files of a batch that is not cancelled. -/
structure Settles (setup : BatchSetup) (forcePortable : Bool) (files : List SourceFile)
    (result : BatchResult) : Prop where
  /-- Every file counts once. -/
  count : result.processed + result.skipped = files.length
  /-- The files that are read are those whose grammar can be loaded, and the others are skipped. -/
  processed : result.processed = files.countP (setup.serves forcePortable)
  skipped : result.skipped = files.countP (!setup.serves forcePortable ·)
  /-- The result is the sum of what the files give, in the order of the files. -/
  shares : ∃ shares, setup.GivesAll forcePortable [] files shares ∧ result = BatchResult.ofShares shares
  /-- Each missing grammar that is asked for is reported once, with the first file that asks. -/
  reported : ∀ grammar failure file,
    setup.installed.grammar forcePortable grammar = .error failure →
      files.find? (setup.asks grammar) = some file →
        ∃ language, Language.dispatch file.path setup.languages = some language ∧
          reportsOf grammar result.diagnostics =
            [⟨file.path, language.name, .grammar, failure.message⟩]

theorem settles_of_result {result : BatchResult}
    (hresult : setup.result forcePortable files = .ok result) :
    setup.Settles forcePortable files result := by
  obtain ⟨outcomes, houtcomes, rfl⟩ := map_eq_ok_iff.mp hresult
  rw [BatchResult.ofOutcomes_eq_ofShares (not_isCancelled_of_mapM_verdict houtcomes)]
  have hnothing : setup.Reported forcePortable [] [] := by simp [Reported]
  have hgives := givesAll_sharesAfter hnothing houtcomes
  have hprocessed := hgives.countP_isProcessed fun processed => processed
  have hskipped := hgives.countP_isProcessed not
  refine ⟨?_, hprocessed, hskipped, ⟨_, hgives, rfl⟩, ?_⟩
  · have hlength := List.length_eq_countP_add_countP (setup.serves forcePortable) (l := files)
    simp only [Bool.not_eq_true, Bool.decide_eq_false] at hlength
    rw [hlength]
    exact congrArg₂ (· + ·) hprocessed hskipped
  · intro grammar failure file hfailure hfind
    exact hgives.reportsOf_of_find hfailure (by simp) hfind

/-- **Every file is accounted for once** by a batch that is not cancelled, whatever was run before,
however many workers there are, and in whatever order they read. -/
theorem runBatch_settles (setup : BatchSetup) {result : BatchResult}
    (hstate : Between setup.installed forcePortable pool shared) (batch : Batch)
    (hresult : (setup.runBatch batch pool shared).value.1 = .ok result)
    (hcomplete : result.cancelled = false) :
    setup.Settles forcePortable batch.files result := by
  obtain ⟨hpool, hshared⟩ := hstate.faithful
  obtain ⟨outcome, pool', shared', hrun, -, -, huses⟩ := runBatch_spec batch hpool hshared
  rw [hrun] at hresult
  exact settles_of_result ((huses result hresult).complete hcomplete)

/-- A missing grammar that two files ask for, a text that cannot be parsed, and a file of no language. -/
theorem runBatch_settles_exampleBatch :
    ∃ result, (exampleSetup.runBatch exampleBatch {} { patience := some 4 }).value.1 = .ok result ∧
      result.cancelled = false ∧ exampleSetup.Settles false exampleBatch.files result := by
  have hnew : Between exampleSetup.installed false {} { patience := some 4 } := .new (some 4)
  exact ⟨_, rfl, rfl, runBatch_settles exampleSetup hnew exampleBatch rfl rfl⟩

end BatchSetup
end TypeAtlas
