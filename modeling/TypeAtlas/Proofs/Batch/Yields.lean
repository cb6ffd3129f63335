import TypeAtlas.Proofs.Batch.Accounting
import TypeAtlas.Proofs.Extraction.Relocation

/-!
# What each file contributes to a batch

The result of a batch is put together from one outcome for each file (`result_eq_ok_iff`), and an
outcome is that of the file alone.  A `Yield` is what remains of an outcome when it is forgotten where
things are: the keys of nodes and edges, and in which of the two counts the file is.

A file may be read under another path.  If that leads to the same language and the same grammar, the
file is as much at fault as before, and otherwise its yield is the same (`map_yield_verdict`).  So files
that are moved about have the same yields in another order (`succeeds_and_perm_yields`).
-/

namespace TypeAtlas

/-! ## Outcomes without places -/

/-- What an outcome comes to, wherever its file is. -/
structure Yield where
  nodeKeys : List NodeKey
  edgeKeys : List EdgeKey
  isProcessed : Bool
  isSkipped : Bool

/-- The keys of an outcome's fragment, and how the file counts. -/
def Outcome.yield (outcome : Outcome) : Yield where
  nodeKeys := outcome.fragment.nodes.map Node.key
  edgeKeys := outcome.fragment.edges.map Edge.key
  isProcessed := outcome.isProcessed
  isSkipped := outcome.isSkipped

theorem Outcome.yield_extracted_relocate (fragment : Fragment) (file : String) :
    yield (.extracted (fragment.relocate file)) = yield (.extracted fragment) := by
  simp only [yield, Outcome.fragment, Fragment.keys_relocate]
  rfl

namespace BatchResult

variable (outcomes : List Outcome)

theorem nodeKeys_ofOutcomes :
    (ofOutcomes outcomes).nodes.map Node.key =
      (outcomes.map Outcome.yield).flatMap Yield.nodeKeys := by
  rw [ofOutcomes, List.map_flatMap, List.flatMap_map]
  rfl

theorem edgeKeys_ofOutcomes :
    (ofOutcomes outcomes).edges.map Edge.key =
      (outcomes.map Outcome.yield).flatMap Yield.edgeKeys := by
  rw [ofOutcomes, List.map_flatMap, List.flatMap_map]
  rfl

theorem processed_ofOutcomes :
    (ofOutcomes outcomes).processed = (outcomes.map Outcome.yield).countP Yield.isProcessed := by
  rw [ofOutcomes, List.countP_map]
  rfl

theorem skipped_ofOutcomes :
    (ofOutcomes outcomes).skipped = (outcomes.map Outcome.yield).countP Yield.isSkipped := by
  rw [ofOutcomes, List.countP_map]
  rfl

end BatchResult

namespace BatchSetup

variable {setup : BatchSetup} {forcePortable : Bool} {files others : List SourceFile}

/-! ## Results from outcomes -/

/-- Every file of a list has an outcome. -/
def Succeeds (setup : BatchSetup) (forcePortable : Bool) (files : List SourceFile) : Prop :=
  ∀ file ∈ files, ∃ outcome, setup.verdict forcePortable file = .ok outcome

/-- The outcome of a file, or the mark of a cancelled batch in place of a fault. -/
def outcomeOf (setup : BatchSetup) (forcePortable : Bool) (file : SourceFile) : Outcome :=
  (setup.verdict forcePortable file).toOption.getD .cancelled

/-- What the files of a list yield. -/
def yields (setup : BatchSetup) (forcePortable : Bool) (files : List SourceFile) : List Yield :=
  (files.map (setup.outcomeOf forcePortable)).map Outcome.yield

theorem outcomeOf_eq {file : SourceFile} {outcome : Outcome}
    (hverdict : setup.verdict forcePortable file = .ok outcome) :
    setup.outcomeOf forcePortable file = outcome := by
  rw [outcomeOf, hverdict]
  rfl

theorem map_verdict_eq_iff {outcomes : List Outcome} :
    files.map (setup.verdict forcePortable) = outcomes.map .ok ↔
      setup.Succeeds forcePortable files ∧
        files.map (setup.outcomeOf forcePortable) = outcomes := by
  constructor
  · intro hverdicts
    constructor
    · intro file hfile
      have hmem : setup.verdict forcePortable file ∈ outcomes.map Except.ok :=
        hverdicts ▸ List.mem_map_of_mem hfile
      obtain ⟨outcome, -, houtcome⟩ := List.mem_map.mp hmem
      exact ⟨outcome, houtcome.symm⟩
    · calc files.map (setup.outcomeOf forcePortable)
          = (files.map (setup.verdict forcePortable)).map
              fun verdict => verdict.toOption.getD .cancelled := by
            rw [List.map_map]
            rfl
        _ = outcomes.map id := by
            rw [hverdicts, List.map_map]
            rfl
        _ = outcomes := List.map_id outcomes
  · rintro ⟨hok, rfl⟩
    rw [List.map_map]
    apply List.map_congr_left
    intro file hfile
    obtain ⟨outcome, houtcome⟩ := hok file hfile
    rw [Function.comp_apply, outcomeOf_eq houtcome, houtcome]

/-- A batch has a result if no file is at fault, and then it is made of the outcomes of the files. -/
theorem result_eq_ok_iff {result : BatchResult} :
    setup.result forcePortable files = .ok result ↔
      setup.Succeeds forcePortable files ∧
        BatchResult.ofOutcomes (files.map (setup.outcomeOf forcePortable)) = result := by
  rw [BatchSetup.result]
  constructor
  · intro hresult
    cases hlist : files.mapM (setup.verdict forcePortable) with
    | error fault =>
        rw [hlist] at hresult
        cases hresult
    | ok outcomes =>
        rw [hlist] at hresult
        obtain ⟨hok, houtcomes⟩ := map_verdict_eq_iff.mp (mapM_eq_ok_iff.mp hlist)
        exact ⟨hok, houtcomes ▸ Except.ok.inj hresult⟩
  · rintro ⟨hok, rfl⟩
    rw [mapM_eq_ok_iff.mpr (map_verdict_eq_iff.mpr ⟨hok, rfl⟩)]
    rfl

/-! ## Files under other paths -/

/-- A file that is read like another one, perhaps under another path: it has the same text, the same
language or none, and needs the same grammar. -/
structure ReadAlike (languages : Option (List Language)) (file other : SourceFile) : Prop where
  content : other.content = file.content
  language : Language.dispatch other.path languages = Language.dispatch file.path languages
  grammar : ∀ language, Language.dispatch file.path languages = some language →
    language.extractor.grammarFor other.path = language.extractor.grammarFor file.path

theorem yield_readFile (setup : BatchSetup) (language : Language) (grammar : Grammar)
    {file other : SourceFile} (hcontent : other.content = file.content) :
    (setup.readFile language ⟨some grammar⟩ other).value.yield =
      (setup.readFile language ⟨some grammar⟩ file).value.yield := by
  rw [value_readFile, value_readFile, hcontent]
  cases setup.parse grammar file.content with
  | error message => rfl
  | ok tree =>
      simp only [value_readTree, language.extractor.extract_relocate tree file.path other.path]
      cases language.extractor.extract tree file.path with
      | error fault => rfl
      | ok fragment => exact Outcome.yield_extracted_relocate fragment other.path

/-- A file has the same fault or the same yield under every path under which it is read alike. -/
theorem map_yield_verdict {file other : SourceFile} (halike : ReadAlike setup.languages file other) :
    (setup.verdict forcePortable other).map Outcome.yield =
      (setup.verdict forcePortable file).map Outcome.yield := by
  cases hlanguage : Language.dispatch file.path setup.languages with
  | none => rw [verdict, verdict, halike.language, hlanguage]
  | some language =>
      have hother := halike.language.trans hlanguage
      have hname := halike.grammar language hlanguage
      cases hgrammar : setup.installed.grammar forcePortable
          (language.extractor.grammarFor file.path) with
      | error failure =>
          rw [verdict_of_missing hlanguage hgrammar, verdict_of_missing hother (hname ▸ hgrammar)]
          rfl
      | ok loaded =>
          rw [verdict_of_loaded hlanguage hgrammar, verdict_of_loaded hother (hname ▸ hgrammar)]
          cases setup.installed.parserImport with
          | error fault => rfl
          | ok =>
              exact congrArg Except.ok
                (yield_readFile setup language loaded.grammar halike.content)

theorem ReadAlike.exists_outcome {file other : SourceFile} {outcome : Outcome}
    (halike : ReadAlike setup.languages file other)
    (hverdict : setup.verdict forcePortable file = .ok outcome) :
    ∃ moved, setup.verdict forcePortable other = .ok moved ∧ moved.yield = outcome.yield := by
  have hyield : (setup.verdict forcePortable other).map Outcome.yield =
      (setup.verdict forcePortable file).map Outcome.yield := map_yield_verdict halike
  rw [hverdict] at hyield
  cases hother : setup.verdict forcePortable other with
  | error fault =>
      rw [hother] at hyield
      cases hyield
  | ok moved =>
      rw [hother] at hyield
      exact ⟨moved, rfl, Except.ok.inj hyield⟩

/-- Files are moved about: each keeps its text and is read alike, but paths and order may change. -/
def Rearranged (languages : Option (List Language)) (files others : List SourceFile) : Prop :=
  ∃ moves : List (SourceFile × SourceFile),
    (moves.map Prod.fst).Perm files ∧ moves.map Prod.snd = others ∧
      ∀ move ∈ moves, ReadAlike languages move.1 move.2

theorem succeeds_and_perm_yields (hok : setup.Succeeds forcePortable files)
    (hfiles : Rearranged setup.languages files others) :
    setup.Succeeds forcePortable others ∧
      (setup.yields forcePortable others).Perm (setup.yields forcePortable files) := by
  obtain ⟨moves, hperm, rfl, halike⟩ := hfiles
  have hmove : ∀ move ∈ moves, ∃ outcome moved,
      setup.verdict forcePortable move.1 = .ok outcome ∧
        setup.verdict forcePortable move.2 = .ok moved ∧ moved.yield = outcome.yield := by
    intro move hmem
    obtain ⟨outcome, hverdict⟩ := hok move.1 (hperm.subset (List.mem_map_of_mem hmem))
    obtain ⟨moved, hmoved, hyield⟩ := (halike move hmem).exists_outcome hverdict
    exact ⟨outcome, moved, hverdict, hmoved, hyield⟩
  constructor
  · intro other hother
    obtain ⟨move, hmem, rfl⟩ := List.mem_map.mp hother
    obtain ⟨-, moved, -, hmoved, -⟩ := hmove move hmem
    exact ⟨moved, hmoved⟩
  · have hsame : setup.yields forcePortable (moves.map Prod.snd) =
        setup.yields forcePortable (moves.map Prod.fst) := by
      simp only [yields, List.map_map]
      apply List.map_congr_left
      intro move hmem
      obtain ⟨outcome, moved, hverdict, hmoved, hyield⟩ := hmove move hmem
      simp only [Function.comp_apply, outcomeOf_eq hverdict, outcomeOf_eq hmoved, hyield]
    rw [hsame]
    exact (hperm.map _).map _

end BatchSetup
end TypeAtlas
