import TypeAtlas.Batch.Run
import TypeAtlas.Proofs.Grammar.Pool

/-!
# What comes of a file

`BatchSetup.verdict` says without any state what comes of a file that is begun: it depends on the
setup, on whether portable grammars are forced, and on the file.  The workers' parsers and the shared
grammars and findings only ever grow from faithful ones, so `BatchSetup.process` gives this verdict to
every worker at any time (`process_spec`).

Patience is the one part of the state that shows.  How it limits what one worker reads is said by
`inOrder_spec`, and what several workers read by `follow_spec`.
-/

namespace TypeAtlas

/-- What all workers share is faithful. -/
structure Shared.Faithful (installed : Installation) (forcePortable : Bool) (shared : Shared) :
    Prop where
  cache : shared.cache.Faithful installed forcePortable
  loader : shared.loader.Faithful installed

theorem Shared.Faithful.begin {installed : Installation} {forcePortable : Bool} {shared : Shared}
    (hshared : shared.Faithful installed forcePortable) :
    shared.begin.Faithful installed forcePortable :=
  ⟨hshared.cache, hshared.loader⟩

namespace BatchSetup

variable {setup : BatchSetup} {forcePortable : Bool} {pool : ParserPool} {shared : Shared}

/-! ## One file -/

/-- What comes of a file of a language. -/
def verdictAs (setup : BatchSetup) (forcePortable : Bool) (language : Language) (file : SourceFile) :
    Except ImportFault Outcome :=
  let grammar := language.extractor.grammarFor file.path
  match setup.installed.parser forcePortable grammar with
  | .error (.noParser fault) => .error fault
  | .error (.noGrammar failure) =>
    .ok (.noGrammar grammar ⟨file.path, language.name, .grammar, failure.message⟩)
  | .ok parser => .ok (setup.readFile language parser file).value

/-- What comes of a file that is begun. -/
def verdict (setup : BatchSetup) (forcePortable : Bool) (file : SourceFile) :
    Except ImportFault Outcome :=
  match Language.dispatch file.path setup.languages with
  | none => .ok .unsupported
  | some language => setup.verdictAs forcePortable language file

/-- What comes of a file if so many may still begin. -/
def verdictWithin (setup : BatchSetup) (forcePortable : Bool) (patience : Option Nat)
    (file : SourceFile) : Except ImportFault Outcome :=
  if patience = some 0 then .ok .cancelled else setup.verdict forcePortable file

theorem value_readTree (language : Language) (file : String) (tree : Syntax.Tree) :
    (readTree language file tree).value =
      match language.extractor.extract tree file with
      | .ok fragment => .extracted fragment
      | .error fault => .failed
          ⟨file, language.name, .extract, (FailureCause.extraction file fault.message).message⟩ := by
  simp only [readTree]
  cases language.extractor.extract tree file <;> split <;> rfl

theorem value_readFile (setup : BatchSetup) (language : Language) (grammar : Grammar)
    (file : SourceFile) :
    (setup.readFile language ⟨some grammar⟩ file).value =
      match setup.parse grammar file.content with
      | .error message => .failed ⟨file.path, language.name, .parse,
          (FailureCause.extraction file.path message).message⟩
      | .ok tree => (readTree language file.path tree).value := by
  simp only [readFile, Parser.parse]
  cases setup.parse grammar file.content <;> rfl

section

variable {language : Language} {file : SourceFile}

theorem verdict_of_missing {failure : Failure}
    (hlanguage : Language.dispatch file.path setup.languages = some language)
    (hgrammar : setup.installed.grammar forcePortable
      (language.extractor.grammarFor file.path) = .error failure) :
    setup.verdict forcePortable file = .ok (.noGrammar (language.extractor.grammarFor file.path)
      ⟨file.path, language.name, .grammar, failure.message⟩) := by
  simp only [verdict, hlanguage, verdictAs, Installation.parser, hgrammar]

theorem verdict_of_loaded {loaded : LoadedGrammar}
    (hlanguage : Language.dispatch file.path setup.languages = some language)
    (hgrammar : setup.installed.grammar forcePortable
      (language.extractor.grammarFor file.path) = .ok loaded) :
    setup.verdict forcePortable file = setup.installed.parserImport.map fun _ =>
      (setup.readFile language ⟨some loaded.grammar⟩ file).value := by
  simp only [verdict, hlanguage, verdictAs, Installation.parser, hgrammar]
  cases setup.installed.parserImport <;> rfl

end

/-- The verdicts that there are for a file, each with what it comes from. -/
inductive Judged (setup : BatchSetup) (forcePortable : Bool) (file : SourceFile) :
    Except ImportFault Outcome → Prop where
  | unsupported (hlanguage : Language.dispatch file.path setup.languages = none) :
      Judged setup forcePortable file (.ok .unsupported)
  | missing {language failure}
      (hlanguage : Language.dispatch file.path setup.languages = some language)
      (hgrammar : setup.installed.grammar forcePortable
        (language.extractor.grammarFor file.path) = .error failure) :
      Judged setup forcePortable file (.ok (.noGrammar (language.extractor.grammarFor file.path)
        ⟨file.path, language.name, .grammar, failure.message⟩))
  | noParser {language loaded fault}
      (hlanguage : Language.dispatch file.path setup.languages = some language)
      (hgrammar : setup.installed.grammar forcePortable
        (language.extractor.grammarFor file.path) = .ok loaded)
      (himport : setup.installed.parserImport = .error fault) :
      Judged setup forcePortable file (.error fault)
  | unparsed {language loaded message}
      (hlanguage : Language.dispatch file.path setup.languages = some language)
      (hgrammar : setup.installed.grammar forcePortable
        (language.extractor.grammarFor file.path) = .ok loaded)
      (hparse : setup.parse loaded.grammar file.content = .error message) :
      Judged setup forcePortable file (.ok (.failed ⟨file.path, language.name, .parse,
        (FailureCause.extraction file.path message).message⟩))
  | unread {language loaded tree fault}
      (hlanguage : Language.dispatch file.path setup.languages = some language)
      (hgrammar : setup.installed.grammar forcePortable
        (language.extractor.grammarFor file.path) = .ok loaded)
      (hparse : setup.parse loaded.grammar file.content = .ok tree)
      (hextract : language.extractor.extract tree file.path = .error fault) :
      Judged setup forcePortable file (.ok (.failed ⟨file.path, language.name, .extract,
        (FailureCause.extraction file.path fault.message).message⟩))
  | read {language loaded tree fragment}
      (hlanguage : Language.dispatch file.path setup.languages = some language)
      (hgrammar : setup.installed.grammar forcePortable
        (language.extractor.grammarFor file.path) = .ok loaded)
      (hparse : setup.parse loaded.grammar file.content = .ok tree)
      (hextract : language.extractor.extract tree file.path = .ok fragment) :
      Judged setup forcePortable file (.ok (.extracted fragment))

theorem judged (setup : BatchSetup) (forcePortable : Bool) (file : SourceFile) :
    setup.Judged forcePortable file (setup.verdict forcePortable file) := by
  cases hlanguage : Language.dispatch file.path setup.languages with
  | none =>
      rw [verdict, hlanguage]
      exact .unsupported hlanguage
  | some language =>
      cases hgrammar : setup.installed.grammar forcePortable
          (language.extractor.grammarFor file.path) with
      | error failure =>
          rw [verdict_of_missing hlanguage hgrammar]
          exact .missing hlanguage hgrammar
      | ok loaded =>
          rw [verdict_of_loaded hlanguage hgrammar, value_readFile]
          cases himport : setup.installed.parserImport with
          | error fault => exact .noParser hlanguage hgrammar himport
          | ok =>
              cases hparse : setup.parse loaded.grammar file.content with
              | error message => exact .unparsed hlanguage hgrammar hparse
              | ok tree =>
                  simp only [value_readTree]
                  cases hextract : language.extractor.extract tree file.path with
                  | error fault => exact .unread hlanguage hgrammar hparse hextract
                  | ok fragment => exact .read hlanguage hgrammar hparse hextract

theorem verdict_ne_cancelled (setup : BatchSetup) (forcePortable : Bool) (file : SourceFile) :
    setup.verdict forcePortable file ≠ .ok .cancelled := by
  intro hcancelled
  have hjudged := setup.judged forcePortable file
  rw [hcancelled] at hjudged
  cases hjudged

theorem processAs_spec (language : Language) (file : SourceFile)
    (hpool : pool.Faithful setup.installed forcePortable)
    (hshared : shared.Faithful setup.installed forcePortable) :
    ∃ pool' shared', (setup.processAs language file pool shared).value =
        (setup.verdictAs forcePortable language file, pool', shared') ∧
      pool'.Faithful setup.installed forcePortable ∧
      shared'.Faithful setup.installed forcePortable ∧ shared'.patience = shared.patience := by
  obtain ⟨pool', cache', loader', hparser, hpool', hcache', hloader'⟩ :=
    ParserPool.parserFor_spec language.name (language.extractor.grammarFor file.path) hpool
      hshared.cache hshared.loader
  refine ⟨pool', { shared with cache := cache', loader := loader' }, ?_, hpool',
    ⟨hcache', hloader'⟩, rfl⟩
  rw [processAs, Logged.value_bind, hparser, verdictAs]
  cases setup.installed.parser forcePortable (language.extractor.grammarFor file.path) with
  | error fault => cases fault <;> rfl
  | ok parser => rfl

/-- **Every worker gives a file the same verdict**, whatever was read before. -/
theorem process_spec (file : SourceFile) (hpool : pool.Faithful setup.installed forcePortable)
    (hshared : shared.Faithful setup.installed forcePortable) :
    ∃ pool' shared', (setup.process file pool shared).value =
        (setup.verdictWithin forcePortable shared.patience file, pool', shared') ∧
      pool'.Faithful setup.installed forcePortable ∧
      shared'.Faithful setup.installed forcePortable ∧
      shared'.patience = shared.patience.map (· - 1) := by
  rw [process, verdictWithin]
  by_cases hspent : shared.patience = some 0
  · rw [if_pos hspent, if_pos hspent]
    exact ⟨pool, shared, rfl, hpool, hshared, by rw [hspent]; rfl⟩
  · rw [if_neg hspent, if_neg hspent, verdict]
    cases Language.dispatch file.path setup.languages with
    | none => exact ⟨pool, shared.begin, rfl, hpool, hshared.begin, rfl⟩
    | some language => exact processAs_spec language file hpool hshared.begin

/-! ## One worker -/

/-- Those of some items that begin if so many may. -/
def begun (patience : Option Nat) (items : List α) : List α :=
  match patience with
  | none => items
  | some limit => items.take limit

theorem begun_cons {patience : Option Nat} (hleft : patience ≠ some 0) (item : α)
    (items : List α) :
    begun patience (item :: items) = item :: begun (patience.map (· - 1)) items := by
  match patience with
  | none => rfl
  | some (limit + 1) => rfl

/-- What one worker adds for the files that it does not begin. -/
def cut (patience : Option Nat) (files : List SourceFile) : List Outcome :=
  if (begun patience files).length < files.length then [.cancelled] else []

/-- What comes of files that one worker reads in order. -/
def outcomesInOrder (setup : BatchSetup) (forcePortable : Bool) (patience : Option Nat)
    (files : List SourceFile) : Except ImportFault (List Outcome) :=
  ((begun patience files).mapM (setup.verdict forcePortable)).map (· ++ cut patience files)

theorem outcomesInOrder_cons {patience : Option Nat} (hleft : patience ≠ some 0)
    (file : SourceFile) (files : List SourceFile) :
    setup.outcomesInOrder forcePortable patience (file :: files) =
      (setup.verdict forcePortable file).bind fun outcome =>
        (setup.outcomesInOrder forcePortable (patience.map (· - 1)) files).map (outcome :: ·) := by
  have hcut : cut patience (file :: files) = cut (patience.map (· - 1)) files := by
    simp only [cut, begun_cons hleft, List.length_cons, Nat.add_lt_add_iff_right]
  rw [outcomesInOrder, begun_cons hleft, List.mapM_cons, hcut]
  cases setup.verdict forcePortable file with
  | error fault => rfl
  | ok outcome =>
      simp only [outcomesInOrder]
      cases (begun (patience.map (· - 1)) files).mapM (setup.verdict forcePortable) <;> rfl

theorem inOrder_spec (files : List SourceFile)
    (hpool : pool.Faithful setup.installed forcePortable)
    (hshared : shared.Faithful setup.installed forcePortable) :
    ∃ pool' shared', (setup.inOrder pool shared files).value =
        (setup.outcomesInOrder forcePortable shared.patience files, pool', shared') ∧
      pool'.Faithful setup.installed forcePortable ∧
      shared'.Faithful setup.installed forcePortable := by
  induction files generalizing pool shared with
  | nil =>
      refine ⟨pool, shared, ?_, hpool, hshared⟩
      rw [inOrder, outcomesInOrder]
      cases shared.patience <;> simp [begun, cut] <;> rfl
  | cons file files ih =>
      obtain ⟨pool₁, shared₁, hprocess, hpool₁, hshared₁, hpatience⟩ :=
        process_spec file hpool hshared
      rw [inOrder, Logged.value_bind, hprocess, verdictWithin]
      by_cases hspent : shared.patience = some 0
      · rw [if_pos hspent, hspent]
        exact ⟨pool₁, shared₁, rfl, hpool₁, hshared₁⟩
      · rw [if_neg hspent, outcomesInOrder_cons hspent]
        -- A fault ends the batch, and any outcome of a file that was begun goes before the others.
        cases hverdict : setup.verdict forcePortable file with
        | error fault => exact ⟨pool₁, shared₁, rfl, hpool₁, hshared₁⟩
        | ok outcome =>
            obtain ⟨pool₂, shared₂, hrest, hpool₂, hshared₂⟩ := ih hpool₁ hshared₁
            rw [hpatience] at hrest
            refine ⟨pool₂, shared₂, ?_, hpool₂, hshared₂⟩
            cases outcome with
            | cancelled => exact absurd hverdict (setup.verdict_ne_cancelled forcePortable file)
            | _ =>
                simp only [Logged.value_bind, hrest, Logged.value_pure]
                rfl

/-! ## Several workers -/

/-- What comes of the turns of a schedule. -/
def turns (setup : BatchSetup) (forcePortable : Bool) (files : List SourceFile) :
    Option Nat → Schedule → List (Nat × Except ImportFault Outcome)
  | _, [] => []
  | patience, (_, position) :: rest =>
    match files[position]? with
    | none => setup.turns forcePortable files patience rest
    | some file =>
      (position, setup.verdictWithin forcePortable patience file) ::
        setup.turns forcePortable files (patience.map (· - 1)) rest

theorem follow_spec (files : List SourceFile) (pools : List (Nat × ParserPool))
    (hpools : ∀ worker pool, pools.lookup worker = some pool →
      pool.Faithful setup.installed forcePortable)
    (hshared : shared.Faithful setup.installed forcePortable) (schedule : Schedule) :
    ∃ shared', (setup.follow files pools shared schedule).value =
        (setup.turns forcePortable files shared.patience schedule, shared') ∧
      shared'.Faithful setup.installed forcePortable := by
  induction schedule generalizing pools shared with
  | nil => exact ⟨shared, rfl, hshared⟩
  | cons turn rest ih =>
      obtain ⟨worker, position⟩ := turn
      rw [follow, turns]
      cases hfile : files[position]? with
      | none => exact ih pools hpools hshared
      | some file =>
          -- A worker that has no parsers yet begins with a faithful pool, too.
          have hpool : ((pools.lookup worker).getD {}).Faithful setup.installed forcePortable := by
            cases hfound : pools.lookup worker with
            | none => exact ParserPool.faithful_empty _ _
            | some pool => exact hpools worker pool hfound
          obtain ⟨pool₁, shared₁, hprocess, hpool₁, hshared₁, hpatience⟩ :=
            process_spec file hpool hshared
          have hpools₁ : ∀ other pool, (putEntry pools worker pool₁).lookup other = some pool →
              pool.Faithful setup.installed forcePortable := by
            intro other pool hfound
            rw [lookup_putEntry] at hfound
            split at hfound
            · exact Option.some.inj hfound ▸ hpool₁
            · exact hpools other pool hfound
          obtain ⟨shared₂, hrest, hshared₂⟩ := ih _ hpools₁ hshared₁
          rw [hpatience] at hrest
          refine ⟨shared₂, ?_, hshared₂⟩
          simp only [Logged.value_bind, hprocess, hrest, Logged.value_pure]

theorem bySchedule_spec (files : List SourceFile) (schedule : Schedule)
    (hshared : shared.Faithful setup.installed forcePortable) :
    ∃ shared', (setup.bySchedule schedule shared files).value =
        (inFileOrder files.length (setup.turns forcePortable files shared.patience schedule),
          shared') ∧
      shared'.Faithful setup.installed forcePortable := by
  obtain ⟨shared', hfollow, hshared'⟩ := follow_spec files [] nofun hshared schedule
  refine ⟨shared', ?_, hshared'⟩
  simp only [bySchedule, Logged.value_bind, hfollow, Logged.value_pure]

end BatchSetup
end TypeAtlas
