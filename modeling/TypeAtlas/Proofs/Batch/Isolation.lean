import TypeAtlas.Proofs.Batch.Accounting

/-!
# What a bad file or grammar does to a batch

Loading a grammar, parsing and reading declarations may fail for any file, and none of these failures
ends a batch: each is found among its diagnostics.  Creating a parser is different.  If the core has
no parsers, a batch ends with that fault as soon as it begins a file whose grammar could be loaded,
which is what happens with a pack that works beside a core that does not.

`Isolates` says both, and `run_isolates` says it of every batch, by one worker or by several.
-/

namespace TypeAtlas

/-! ## Diagnostics -/

namespace BatchResult

theorem mem_diagnosticsAfter_of_failed {diagnostic : Diagnostic} {outcomes : List Outcome}
    (hfailed : .failed diagnostic ∈ outcomes) (reported : List String) :
    diagnostic ∈ diagnosticsAfter reported outcomes := by
  induction outcomes generalizing reported with
  | nil => exact absurd hfailed List.not_mem_nil
  | cons outcome outcomes ih =>
      rcases List.mem_cons.mp hfailed with rfl | hrest
      · exact List.mem_cons_self ..
      · cases outcome with
        | noGrammar grammar missing =>
            rw [diagnosticsAfter]
            split
            · exact ih hrest reported
            · exact List.mem_cons_of_mem _ (ih hrest _)
        | failed other => exact List.mem_cons_of_mem _ (ih hrest reported)
        | _ => exact ih hrest reported

/-- A grammar that cannot be had is reported, with the first file that needs it. -/
theorem exists_diagnosticsAfter_of_noGrammar {grammar : String} {diagnostic : Diagnostic}
    {outcomes : List Outcome} (hmissing : .noGrammar grammar diagnostic ∈ outcomes)
    {reported : List String} (hnew : grammar ∉ reported) :
    ∃ first, .noGrammar grammar first ∈ outcomes ∧ first ∈ diagnosticsAfter reported outcomes := by
  induction outcomes generalizing reported with
  | nil => exact absurd hmissing List.not_mem_nil
  | cons outcome outcomes ih =>
      rcases List.mem_cons.mp hmissing with rfl | hrest
      · refine ⟨diagnostic, List.mem_cons_self .., ?_⟩
        rw [diagnosticsAfter, if_neg (by simpa using hnew)]
        exact List.mem_cons_self ..
      · cases outcome with
        | noGrammar other missing =>
            by_cases hother : other = grammar
            · subst hother
              refine ⟨missing, List.mem_cons_self .., ?_⟩
              rw [diagnosticsAfter, if_neg (by simpa using hnew)]
              exact List.mem_cons_self ..
            · rw [diagnosticsAfter]
              split
              · obtain ⟨first, hfirst, hreported⟩ := ih hrest hnew
                exact ⟨first, List.mem_cons_of_mem _ hfirst, hreported⟩
              · have hnew' : grammar ∉ other :: reported := by
                  rw [List.mem_cons, not_or]
                  exact ⟨Ne.symm hother, hnew⟩
                obtain ⟨first, hfirst, hreported⟩ := ih hrest hnew'
                exact ⟨first, List.mem_cons_of_mem _ hfirst, List.mem_cons_of_mem _ hreported⟩
        | failed other =>
            obtain ⟨first, hfirst, hreported⟩ := ih hrest hnew
            exact ⟨first, List.mem_cons_of_mem _ hfirst, List.mem_cons_of_mem _ hreported⟩
        | _ =>
            obtain ⟨first, hfirst, hreported⟩ := ih hrest hnew
            exact ⟨first, List.mem_cons_of_mem _ hfirst, hreported⟩

end BatchResult

namespace BatchSetup

variable {setup : BatchSetup} {forcePortable : Bool} {file : SourceFile} {pool : ParserPool}
  {shared : Shared} {schedule : Schedule}

/-! ## One file -/

/-- A file needs a parser: its language is admitted, and its grammar can be loaded. -/
def NeedsParser (setup : BatchSetup) (forcePortable : Bool) (file : SourceFile) : Prop :=
  ∃ language loaded, Language.dispatch file.path setup.languages = some language ∧
    setup.installed.grammar forcePortable (language.extractor.grammarFor file.path) = .ok loaded

/-- The ways in which a file fails for which there is a parser, or no grammar: the stage and the
message of the failure. -/
inductive Fails (setup : BatchSetup) (forcePortable : Bool) (file : SourceFile) :
    Stage → String → Prop where
  | grammar {language : Language} {failure : Failure}
      (hlanguage : Language.dispatch file.path setup.languages = some language)
      (hgrammar : setup.installed.grammar forcePortable
        (language.extractor.grammarFor file.path) = .error failure) :
      Fails setup forcePortable file .grammar failure.message
  | parse {language : Language} {loaded : LoadedGrammar} {message : String}
      (hlanguage : Language.dispatch file.path setup.languages = some language)
      (hgrammar : setup.installed.grammar forcePortable
        (language.extractor.grammarFor file.path) = .ok loaded)
      (hparse : setup.parse loaded.grammar file.content = .error message) :
      Fails setup forcePortable file .parse (FailureCause.extraction file.path message).message
  | extract {language : Language} {loaded : LoadedGrammar} {tree : Syntax.Tree}
      {fault : ExtractorFault}
      (hlanguage : Language.dispatch file.path setup.languages = some language)
      (hgrammar : setup.installed.grammar forcePortable
        (language.extractor.grammarFor file.path) = .ok loaded)
      (hparse : setup.parse loaded.grammar file.content = .ok tree)
      (hextract : language.extractor.extract tree file.path = .error fault) :
      Fails setup forcePortable file .extract
        (FailureCause.extraction file.path fault.message).message

theorem parserImport_eq_error_iff {installed : Installation} {fault : ImportFault} :
    installed.parserImport = .error fault ↔ installed.parserFault? = some fault := by
  rw [Installation.parserImport]
  cases installed.parserFault? <;> simp

theorem verdict_eq_error_iff {fault : ImportFault} :
    setup.verdict forcePortable file = .error fault ↔
      setup.installed.parserFault? = some fault ∧ setup.NeedsParser forcePortable file := by
  rw [← parserImport_eq_error_iff]
  constructor
  · intro hverdict
    have hjudged := setup.judged forcePortable file
    rw [hverdict] at hjudged
    cases hjudged with
    | noParser hlanguage hgrammar himport => exact ⟨himport, _, _, hlanguage, hgrammar⟩
  · rintro ⟨himport, language, loaded, hlanguage, hgrammar⟩
    rw [verdict_of_loaded hlanguage hgrammar, himport]
    rfl

/-- A grammar that is missing is so for every file, and with the same message. -/
theorem verdict_eq_noGrammar {grammar : String} {diagnostic : Diagnostic}
    (hverdict : setup.verdict forcePortable file = .ok (.noGrammar grammar diagnostic)) :
    diagnostic.stage = .grammar ∧
      ∃ failure, setup.installed.grammar forcePortable grammar = .error failure ∧
        diagnostic.message = failure.message := by
  have hjudged := setup.judged forcePortable file
  rw [hverdict] at hjudged
  cases hjudged with
  | missing hlanguage hgrammar => exact ⟨rfl, _, hgrammar, rfl⟩

theorem verdict_of_fails {stage : Stage} {message : String} {outcome : Outcome}
    (hfails : setup.Fails forcePortable file stage message)
    (hverdict : setup.verdict forcePortable file = .ok outcome) :
    ∃ diagnostic : Diagnostic, diagnostic.file = file.path ∧ diagnostic.stage = stage ∧
      diagnostic.message = message ∧
      (outcome = .failed diagnostic ∨ stage = .grammar ∧
        ∃ grammar, outcome = .noGrammar grammar diagnostic) := by
  cases hfails with
  | grammar hlanguage hgrammar =>
      rw [verdict_of_missing hlanguage hgrammar] at hverdict
      exact ⟨_, rfl, rfl, rfl, .inr ⟨rfl, _, (Except.ok.inj hverdict).symm⟩⟩
  | parse hlanguage hgrammar hparse =>
      rw [verdict_of_loaded hlanguage hgrammar, value_readFile, hparse] at hverdict
      cases himport : setup.installed.parserImport with
      | error fault =>
          rw [himport] at hverdict
          cases hverdict
      | ok =>
          rw [himport] at hverdict
          exact ⟨_, rfl, rfl, rfl, .inl (Except.ok.inj hverdict).symm⟩
  | extract hlanguage hgrammar hparse hextract =>
      rw [verdict_of_loaded hlanguage hgrammar, value_readFile, hparse] at hverdict
      simp only [value_readTree, hextract] at hverdict
      cases himport : setup.installed.parserImport with
      | error fault =>
          rw [himport] at hverdict
          cases hverdict
      | ok =>
          rw [himport] at hverdict
          exact ⟨_, rfl, rfl, rfl, .inl (Except.ok.inj hverdict).symm⟩

/-! ## Batches -/

/-- What becomes of the failures of some files in a batch. -/
structure Isolates (setup : BatchSetup) (forcePortable : Bool) (files : List SourceFile)
    (outcome : Except ImportFault BatchResult) : Prop where
  /-- A batch ends without a result only where a file needs a parser and the core has none. -/
  fails_iff : ∀ fault, outcome = .error fault ↔
    setup.installed.parserFault? = some fault ∧ ∃ file ∈ files, setup.NeedsParser forcePortable file
  /-- Whatever else fails has its diagnostic. -/
  reported : ∀ result, outcome = .ok result → ∀ file ∈ files, ∀ stage message,
    setup.Fails forcePortable file stage message →
      ∃ diagnostic ∈ result.diagnostics, diagnostic.stage = stage ∧ diagnostic.message = message ∧
        (stage ≠ .grammar → diagnostic.file = file.path)

theorem AccountsFor.error_iff {files : List SourceFile} {outcomes : Except ImportFault (List Outcome)}
    (houtcomes : setup.AccountsFor forcePortable files outcomes) (fault : ImportFault) :
    outcomes = .error fault ↔ setup.installed.parserFault? = some fault ∧
      ∃ file ∈ files, setup.NeedsParser forcePortable file := by
  constructor
  · intro hfault
    obtain ⟨file, hfile, hverdict⟩ := houtcomes.exists_fault fault hfault
    obtain ⟨hparser, hneeds⟩ := verdict_eq_error_iff.mp hverdict
    exact ⟨hparser, file, hfile, hneeds⟩
  · rintro ⟨hparser, file, hfile, hneeds⟩
    have hverdict := verdict_eq_error_iff.mpr ⟨hparser, hneeds⟩
    cases hlist : outcomes with
    | error other =>
        -- Another file may come first, but all have the fault of the core.
        obtain ⟨culprit, -, hculprit⟩ := houtcomes.exists_fault other hlist
        have hother := (verdict_eq_error_iff.mp hculprit).1
        rw [Option.some.inj (hother.symm.trans hparser)]
    | ok list =>
        obtain ⟨outcome, hok⟩ := (houtcomes.mem_iff list hlist).1 file hfile
        exact absurd (hok.symm.trans hverdict) nofun

theorem AccountsFor.exists_diagnostic {files : List SourceFile} {outcomes : List Outcome}
    {stage : Stage} {message : String} (houtcomes : setup.AccountsFor forcePortable files (.ok outcomes))
    (hfile : file ∈ files) (hfails : setup.Fails forcePortable file stage message) :
    ∃ diagnostic ∈ (BatchResult.ofOutcomes outcomes).diagnostics,
      diagnostic.stage = stage ∧ diagnostic.message = message ∧
        (stage ≠ .grammar → diagnostic.file = file.path) := by
  obtain ⟨hok, hmem⟩ := houtcomes.mem_iff outcomes rfl
  obtain ⟨outcome, hverdict⟩ := hok file hfile
  have hlisted : outcome ∈ outcomes := by
    refine (hmem outcome ?_).mpr ⟨file, hfile, hverdict⟩
    rintro rfl
    exact setup.verdict_ne_cancelled forcePortable file hverdict
  obtain ⟨diagnostic, hpath, rfl, rfl, houtcome⟩ := verdict_of_fails hfails hverdict
  rcases houtcome with rfl | ⟨hstage, grammar, rfl⟩
  · exact ⟨diagnostic, BatchResult.mem_diagnosticsAfter_of_failed hlisted [], rfl, rfl,
      fun _ => hpath⟩
  · -- The diagnostic is that of the first file which needs the grammar.
    obtain ⟨first, hfirst, hreported⟩ :=
      BatchResult.exists_diagnosticsAfter_of_noGrammar hlisted List.not_mem_nil
    obtain ⟨other, -, hother⟩ := (hmem (.noGrammar grammar first) nofun).mp hfirst
    obtain ⟨hfirstStage, failure, hfailure, hfirstMessage⟩ := verdict_eq_noGrammar hother
    obtain ⟨-, same, hsame, hmessage⟩ := verdict_eq_noGrammar hverdict
    obtain rfl : failure = same := Except.error.inj (hfailure.symm.trans hsame)
    exact ⟨first, hreported, hfirstStage.trans hstage.symm, hfirstMessage.trans hmessage.symm,
      fun hne => absurd hstage hne⟩

theorem AccountsFor.isolates {files : List SourceFile} {outcomes : Except ImportFault (List Outcome)}
    (houtcomes : setup.AccountsFor forcePortable files outcomes) :
    setup.Isolates forcePortable files (outcomes.map BatchResult.ofOutcomes) := by
  constructor
  · intro fault
    have hmap : outcomes.map BatchResult.ofOutcomes = .error fault ↔ outcomes = .error fault := by
      cases outcomes <;> simp [Except.map]
    rw [hmap]
    exact houtcomes.error_iff fault
  · intro result hresult file hfile stage message hfails
    cases outcomes with
    | error fault => cases hresult
    | ok list =>
        obtain rfl : BatchResult.ofOutcomes list = result := Except.ok.inj hresult
        exact houtcomes.exists_diagnostic hfile hfails

/-- **What ends a batch and what does not**, for one worker or several, by every schedule, and with
every limit of patience.  The files that count are those that are begun. -/
theorem run_isolates (hstate : Between setup.installed forcePortable pool shared)
    (files : List SourceFile) :
    setup.Isolates forcePortable (begun shared.patience files)
        (setup.run files pool shared).value.1 ∧
      ∀ schedule, Schedule.Covers schedule files.length →
        setup.Isolates forcePortable (filesOf files (begun shared.patience schedule))
          (setup.runBy schedule files shared).value.1 := by
  obtain ⟨hpool, hshared⟩ := hstate.faithful
  constructor
  · obtain ⟨pool', shared', hrun, -, -⟩ := run_spec files hpool hshared
    rw [hrun]
    exact (accountsFor_fileOutcomes files).isolates
  · intro schedule hcovers
    obtain ⟨shared', hrun, -⟩ := runBy_spec schedule files hshared
    rw [hrun]
    exact (accountsFor_bySchedule hcovers).isolates

/-- A pack with a grammar, but no core. -/
def corelessSetup : BatchSetup where
  installed := { core := .missing, pack := .installed ⟨["java"]⟩ }
  parse := fun _ text => .error text

/-- A file of that grammar. -/
def corelessFiles : List SourceFile := [⟨"A.java", "class A {}\n", by decide⟩]

theorem run_isolates_coreless :
    Between corelessSetup.installed false {} {} ∧ Schedule.Covers [(0, 0)] corelessFiles.length ∧
      corelessSetup.Isolates false corelessFiles
        (corelessSetup.run corelessFiles {} {}).value.1 ∧
      corelessSetup.Isolates false corelessFiles
        (corelessSetup.runBy [(0, 0)] corelessFiles {}).value.1 := by
  have hnew : Between corelessSetup.installed false {} {} := .new none
  have hcovers : Schedule.Covers [(0, 0)] corelessFiles.length := by decide
  have hisolates := run_isolates hnew corelessFiles
  exact ⟨hnew, hcovers, hisolates.1, hisolates.2 [(0, 0)] hcovers⟩

/-- A batch may end without a result. -/
theorem coreless_ends_without_result :
    (corelessSetup.run corelessFiles {} {}).value.1 = .error (.noModule coreModule) := by
  decide

end BatchSetup
end TypeAtlas
