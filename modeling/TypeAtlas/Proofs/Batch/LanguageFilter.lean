import TypeAtlas.Proofs.Batch.Accounting
import TypeAtlas.Proofs.Language

/-!
# Filters by language

With a filter by language a batch still goes through all files, but a file of another language is
skipped before a grammar is asked for (`verdict_restrict`).  Such files leave nothing in a result but
their number (`ofOutcomes_eq_skipping`), so the result is that of the other files on their own.
-/

namespace TypeAtlas

/-- Whether an admitted language has files of this extension. -/
def Outcome.isSupported : Outcome → Bool
  | .unsupported => false
  | _ => true

theorem Outcome.isSupported_eq_false_iff {outcome : Outcome} :
    outcome.isSupported = false ↔ outcome = .unsupported := by
  cases outcome <;> simp [isSupported]

namespace BatchResult

/-- The result with some more files that were skipped. -/
def skipping (result : BatchResult) (files : Nat) : BatchResult :=
  { result with skipped := result.skipped + files }

/-! ## Results without unsupported files -/

variable (outcomes : List Outcome)

theorem flatMap_supported {part : Outcome → List α} (hpart : part .unsupported = []) :
    (outcomes.filter Outcome.isSupported).flatMap part = outcomes.flatMap part := by
  induction outcomes with
  | nil => rfl
  | cons outcome outcomes ih =>
      cases hsupported : outcome.isSupported with
      | false =>
          obtain rfl := Outcome.isSupported_eq_false_iff.mp hsupported
          rw [List.filter_cons_of_neg Bool.false_ne_true, ih, List.flatMap_cons, hpart,
            List.nil_append]
      | true => rw [List.filter_cons_of_pos hsupported, List.flatMap_cons, ih, List.flatMap_cons]

theorem diagnosticsAfter_supported (reported : List String) :
    diagnosticsAfter reported (outcomes.filter Outcome.isSupported) =
      diagnosticsAfter reported outcomes := by
  induction outcomes generalizing reported with
  | nil => rfl
  | cons outcome outcomes ih =>
      cases outcome with
      | noGrammar grammar diagnostic =>
          rw [List.filter_cons_of_pos rfl, diagnosticsAfter, diagnosticsAfter, ih, ih]
      | failed diagnostic => exact congrArg (diagnostic :: ·) (ih reported)
      | _ => exact ih reported

theorem countP_supported (counts : Outcome → Bool) :
    outcomes.countP counts = (outcomes.filter Outcome.isSupported).countP counts +
      if counts .unsupported then outcomes.countP (!·.isSupported) else 0 := by
  induction outcomes with
  | nil => cases counts .unsupported <;> rfl
  | cons outcome outcomes ih =>
      cases hsupported : outcome.isSupported with
      | false =>
          obtain rfl := Outcome.isSupported_eq_false_iff.mp hsupported
          rw [List.filter_cons_of_neg Bool.false_ne_true, List.countP_cons, ih, List.countP_cons]
          split <;> simp [hsupported, Nat.add_assoc]
      | true =>
          rw [List.filter_cons_of_pos hsupported, List.countP_cons, ih, List.countP_cons,
            List.countP_cons]
          simp only [hsupported, Bool.not_true, Bool.false_eq_true, if_false, Nat.add_zero]
          omega

/-- Unsupported files count as skipped, and are not seen in any other part of the result. -/
theorem ofOutcomes_eq_skipping :
    ofOutcomes outcomes = (ofOutcomes (outcomes.filter Outcome.isSupported)).skipping
      (outcomes.countP (!·.isSupported)) := by
  have hcancelled : (outcomes.filter Outcome.isSupported).any Outcome.isCancelled =
      outcomes.any Outcome.isCancelled := by
    rw [List.any_filter]
    congr 1
    funext outcome
    cases outcome <;> rfl
  have hskipped := countP_supported outcomes Outcome.isSkipped
  have hprocessed := countP_supported outcomes Outcome.isProcessed
  simp only [Outcome.isSkipped, Outcome.isProcessed, Bool.false_eq_true, if_true, if_false,
    Nat.add_zero] at hskipped hprocessed
  simp only [skipping, ofOutcomes, flatMap_supported outcomes, Outcome.fragment,
    diagnosticsAfter_supported, hcancelled, hskipped, hprocessed]

end BatchResult

namespace BatchSetup

variable {setup : BatchSetup} {forcePortable : Bool} {languages : List Language}
  {files : List SourceFile}

/-- The setup with a filter by language, or without one. -/
def restrict (setup : BatchSetup) (languages : Option (List Language)) : BatchSetup :=
  { setup with languages }

/-! ## Verdicts under a filter -/

theorem verdict_eq_unsupported_iff {file : SourceFile} :
    setup.verdict forcePortable file = .ok .unsupported ↔
      Language.dispatch file.path setup.languages = none := by
  constructor
  · intro hverdict
    have hjudged := setup.judged forcePortable file
    rw [hverdict] at hjudged
    cases hjudged with
    | unsupported hlanguage => exact hlanguage
  · intro hlanguage
    rw [verdict, hlanguage]

/-- A filter skips the files of other languages, and the others fare as without it. -/
theorem verdict_restrict (hlanguages : languages ⊆ Language.table) (file : SourceFile) :
    (setup.restrict (some languages)).verdict forcePortable file =
      if Language.admits languages file.path then (setup.restrict none).verdict forcePortable file
      else .ok .unsupported := by
  have hdispatch : Language.dispatch file.path (setup.restrict (some languages)).languages =
      if Language.admits languages file.path then Language.dispatch file.path none else none :=
    Language.dispatch_some_eq hlanguages
  rw [verdict, hdispatch]
  cases Language.admits languages file.path <;> rfl

theorem isSupported_of_admits {file : SourceFile} {outcome : Outcome}
    (hadmits : Language.admits languages file.path = true)
    (hverdict : (setup.restrict none).verdict forcePortable file = .ok outcome) :
    outcome.isSupported = true := by
  rw [← Bool.not_eq_false, Outcome.isSupported_eq_false_iff]
  rintro rfl
  have hnone : Language.dispatch file.path none = none := verdict_eq_unsupported_iff.mp hverdict
  rw [Language.admits, hnone] at hadmits
  cases hadmits

/-- Under a filter the supported files come to what the admitted files come to without it. -/
theorem mapM_verdict_restrict (hlanguages : languages ⊆ Language.table) (files : List SourceFile) :
    (files.filter fun file => Language.admits languages file.path).mapM
        ((setup.restrict none).verdict forcePortable) =
      (files.mapM ((setup.restrict (some languages)).verdict forcePortable)).map
        (List.filter Outcome.isSupported) := by
  induction files with
  | nil => rfl
  | cons file files ih =>
      rw [List.mapM_cons, verdict_restrict hlanguages, List.filter_cons]
      cases hadmits : Language.admits languages file.path with
      | false =>
          rw [if_neg Bool.false_ne_true, if_neg Bool.false_ne_true, ih]
          cases files.mapM ((setup.restrict (some languages)).verdict forcePortable) <;> rfl
      | true =>
          rw [if_pos rfl, if_pos rfl, List.mapM_cons, ih]
          cases hverdict : (setup.restrict none).verdict forcePortable file with
          | error fault => rfl
          | ok outcome =>
              have hsupported := isSupported_of_admits hadmits hverdict
              cases files.mapM ((setup.restrict (some languages)).verdict forcePortable) with
              | error fault => rfl
              | ok outcomes =>
                  exact congrArg Except.ok (List.filter_cons_of_pos hsupported).symm

theorem isSupported_verdict (hlanguages : languages ⊆ Language.table) {file : SourceFile}
    {outcome : Outcome}
    (hverdict : (setup.restrict (some languages)).verdict forcePortable file = .ok outcome) :
    outcome.isSupported = Language.admits languages file.path := by
  rw [verdict_restrict hlanguages] at hverdict
  cases hadmits : Language.admits languages file.path with
  | false =>
      rw [hadmits, if_neg Bool.false_ne_true] at hverdict
      exact Outcome.isSupported_eq_false_iff.mpr (Except.ok.inj hverdict).symm
  | true =>
      rw [hadmits, if_pos rfl] at hverdict
      exact isSupported_of_admits hadmits hverdict

/-! ## Batches under a filter -/

/-- **The result under a filter** is that of the admitted files, and the others are skipped. -/
theorem result_restrict (hlanguages : languages ⊆ Language.table) (files : List SourceFile) :
    (setup.restrict (some languages)).result forcePortable files =
      ((setup.restrict none).result forcePortable
          (files.filter fun file => Language.admits languages file.path)).map fun result =>
        result.skipping (files.countP fun file => !Language.admits languages file.path) := by
  rw [result, result, mapM_verdict_restrict hlanguages]
  cases houtcomes : files.mapM ((setup.restrict (some languages)).verdict forcePortable) with
  | error fault => rfl
  | ok outcomes =>
      have hsupported : outcomes.map Outcome.isSupported =
          files.map fun file => Language.admits languages file.path :=
        map_eq_map_of_mapM houtcomes fun file _ _ hverdict => isSupported_verdict hlanguages hverdict
      have hcount : outcomes.countP (!·.isSupported) =
          files.countP fun file => !Language.admits languages file.path := by
        calc outcomes.countP (!·.isSupported)
            = (outcomes.map Outcome.isSupported).countP not := by
              rw [List.countP_map]
              rfl
          _ = files.countP fun file => !Language.admits languages file.path := by
              rw [hsupported, List.countP_map]
              rfl
      have hresult := BatchResult.ofOutcomes_eq_skipping outcomes
      rw [hcount] at hresult
      exact congrArg Except.ok hresult

/-- **A filter by language is a filter of the files.**  A path whose language the filter admits keeps
it, and other paths have none; a batch with the filter comes to what a batch without it makes of the
files that are left, whatever was run before, except that it counts the others as skipped. -/
theorem run_with_filter (setup : BatchSetup) {filters : Option (List String)}
    {languages : List Language} {pool otherPool : ParserPool} {shared otherShared : Shared}
    (hfilters : Language.resolve filters = .ok (some languages))
    (hstate : Between setup.installed forcePortable pool shared)
    (hother : Between setup.installed forcePortable otherPool otherShared)
    (hpatience : shared.patience = none) (hotherPatience : otherShared.patience = none)
    (files : List SourceFile) :
    (∀ path,
        (Language.admits languages path = true ↔
          ∃ language ∈ languages, Language.dispatch path none = some language) ∧
        Language.dispatch path (some languages) =
          if Language.admits languages path then Language.dispatch path none else none) ∧
      ({ setup with languages := some languages }.run files pool shared).value.1 =
        ({ setup with languages := none }.run
            (files.filter fun file => Language.admits languages file.path)
            otherPool otherShared).value.1.map fun (result : BatchResult) =>
          result.skipping
            (files.countP fun (file : SourceFile) => !Language.admits languages file.path) := by
  have hlanguages := Language.subset_table_of_resolve hfilters
  refine ⟨fun path => ⟨Language.admits_iff hlanguages, Language.dispatch_some_eq hlanguages⟩, ?_⟩
  have hrun : ({ setup with languages := some languages }.run files pool shared).value.1 =
      (setup.restrict (some languages)).result forcePortable files :=
    run_eq_result (setup.restrict (some languages)) hstate hpatience
  have hrunOther : ({ setup with languages := none }.run
        (files.filter fun file => Language.admits languages file.path)
        otherPool otherShared).value.1 =
      (setup.restrict none).result forcePortable
        (files.filter fun file => Language.admits languages file.path) :=
    run_eq_result (setup.restrict none) hother hotherPatience
  rw [hrun, hrunOther]
  exact result_restrict hlanguages files

theorem run_with_filter_swift :
    Language.resolve (some [" Swift ", ""]) = .ok (some [Language.swift]) ∧
      ({ exampleSetup with languages := some [Language.swift] }.run exampleFiles {} {}).value.1 =
        ({ exampleSetup with languages := none }.run
            (exampleFiles.filter fun file => Language.admits [Language.swift] file.path)
            {} {}).value.1.map fun (result : BatchResult) =>
          result.skipping
            (exampleFiles.countP fun (file : SourceFile) => !Language.admits [Language.swift] file.path) := by
  have hfilters : Language.resolve (some [" Swift ", ""]) = .ok (some [Language.swift]) := by rfl
  have hnew : Between exampleSetup.installed false {} {} := .new none
  exact ⟨hfilters, (run_with_filter exampleSetup hfilters hnew hnew rfl rfl exampleFiles).2⟩

end BatchSetup
end TypeAtlas
