import Mathlib.Data.List.Perm.Basic
import TypeAtlas.Proofs.Batch.Accounting

/-!
# Batches with limited patience

Whoever asks for batches may lose patience after some number of files, wherever in a batch that is.
Then no file is lost and none is made up: the files that are accounted for are as many as the patience
was for, and a batch is marked as cancelled exactly if it has more files than there was patience left
for.  With several workers which files these are is up to the schedule; one worker reads the first
files, and the result is the one of a batch of these files alone.

How many files a batch accounts for rests on its outcomes being the verdicts of the files that were
begun, and marks for the others, in some order (`perm_of_mapM_id`).  How much patience is left for the
next batch is said by `patience_inOrder` and `patience_follow`, and `runBatches_keepsCount` follows by
induction on the batches.
-/

namespace TypeAtlas

/-! ## Outcomes that are no marks -/

/-- How many files a result accounts for. -/
def BatchResult.accounted (result : BatchResult) : Nat := result.processed + result.skipped

/-- How many files results account for together. -/
def BatchResult.accountedIn (results : List BatchResult) : Nat :=
  results.foldr (fun result count => result.accounted + count) 0

theorem BatchResult.accounted_ofOutcomes (outcomes : List Outcome) :
    (ofOutcomes outcomes).accounted = outcomes.countP (!·.isCancelled) := by
  rw [accounted, ofOutcomes]
  induction outcomes with
  | nil => rfl
  | cons outcome outcomes ih =>
      simp only [List.countP_cons, ← ih]
      cases outcome <;> simp [Outcome.isProcessed, Outcome.isSkipped, Outcome.isCancelled] <;> omega

theorem Outcome.any_isCancelled_eq_false {outcomes : List Outcome}
    (houtcomes : ∀ outcome ∈ outcomes, outcome.isCancelled = false) :
    outcomes.any isCancelled = false := by
  rw [List.any_eq_false]
  intro outcome houtcome
  rw [houtcomes outcome houtcome]
  exact Bool.false_ne_true

namespace BatchSetup

variable {setup : BatchSetup} {forcePortable : Bool} {patience : Option Nat} {schedule : Schedule}
  {files : List SourceFile} {pool : ParserPool} {shared : Shared} {limit : Nat}

theorem not_isCancelled_of_mapM_verdict {verdicts : List Outcome}
    (hverdicts : files.mapM (setup.verdict forcePortable) = .ok verdicts) :
    ∀ outcome ∈ verdicts, outcome.isCancelled = false := by
  intro outcome houtcome
  obtain ⟨file, -, hverdict⟩ := exists_mem_of_mapM hverdicts houtcome
  cases outcome with
  | cancelled => exact absurd hverdict (setup.verdict_ne_cancelled forcePortable file)
  | _ => rfl

/-- Results that are the verdicts of some files and marks, in any order, are outcomes only if the
verdicts are, and then these are the outcomes. -/
theorem perm_of_mapM_id {results : List (Except ImportFault Outcome)} {outcomes : List Outcome}
    {marks : Nat}
    (hresults : results.Perm (files.map (setup.verdict forcePortable) ++
      List.replicate marks (.ok .cancelled)))
    (houtcomes : results.mapM id = .ok outcomes) :
    ∃ verdicts, files.mapM (setup.verdict forcePortable) = .ok verdicts ∧
      outcomes.Perm (verdicts ++ List.replicate marks .cancelled) := by
  have hok := eq_map_ok_of_mapM_id houtcomes
  cases hverdicts : files.mapM (setup.verdict forcePortable) with
  | error fault =>
      have hfault : (files.map (setup.verdict forcePortable)).mapM id = .error fault := by
        rw [List.mapM_map]
        exact hverdicts
      have hmem := hresults.mem_iff.mpr (List.mem_append_left _ (mem_of_mapM_id_error hfault))
      rw [hok] at hmem
      obtain ⟨outcome, -, hne⟩ := List.mem_map.mp hmem
      cases hne
  | ok verdicts =>
      refine ⟨verdicts, rfl, ?_⟩
      rw [hok, mapM_eq_ok_iff.mp hverdicts, ← List.map_replicate, ← List.map_append] at hresults
      exact (List.map_perm_map_iff fun _ _ => Except.ok.inj).mp hresults

/-- The verdicts of some files and marks account for these files, and are marked if there are
marks. -/
theorem accounted_of_perm {outcomes verdicts : List Outcome} {marks : Nat}
    (hverdicts : files.mapM (setup.verdict forcePortable) = .ok verdicts)
    (houtcomes : outcomes.Perm (verdicts ++ List.replicate marks .cancelled)) :
    (BatchResult.ofOutcomes outcomes).accounted = files.length ∧
      ((BatchResult.ofOutcomes outcomes).cancelled = true ↔ 0 < marks) := by
  have hcancelled := not_isCancelled_of_mapM_verdict hverdicts
  constructor
  · have hlength : verdicts.length = files.length := by
      simpa using (congrArg List.length (mapM_eq_ok_iff.mp hverdicts)).symm
    have hall : verdicts.countP (!·.isCancelled) = verdicts.length := by
      rw [List.countP_eq_length]
      intro outcome houtcome
      rw [hcancelled outcome houtcome, Bool.not_false]
    rw [BatchResult.accounted_ofOutcomes, houtcomes.countP_eq, List.countP_append, hall, hlength,
      List.countP_replicate]
    rfl
  · have hmarked : (BatchResult.ofOutcomes outcomes).cancelled = true ↔
        ∃ outcome ∈ outcomes, outcome.isCancelled = true := List.any_eq_true
    rw [hmarked]
    constructor
    · rintro ⟨outcome, houtcome, hmark⟩
      rcases List.mem_append.mp (houtcomes.mem_iff.mp houtcome) with hverdict | hreplicate
      · rw [hcancelled outcome hverdict] at hmark
        cases hmark
      · exact Nat.pos_of_ne_zero (List.mem_replicate.mp hreplicate).1
    · intro hmarks
      have hreplicate : Outcome.cancelled ∈ List.replicate marks .cancelled :=
        List.mem_replicate.mpr ⟨Nat.ne_of_gt hmarks, rfl⟩
      exact ⟨.cancelled, houtcomes.mem_iff.mpr (List.mem_append_right _ hreplicate), rfl⟩

/-! ## One batch -/

theorem length_begun (patience : Option Nat) (items : List α) :
    (begun patience items).length = (patience.elim items.length (min · items.length)) := by
  cases patience with
  | none => rfl
  | some limit => exact List.length_take

/-- What one worker adds is a mark for the files that it does not begin. -/
theorem cut_eq_replicate (patience : Option Nat) (files : List SourceFile) :
    ∃ marks, cut patience files = List.replicate marks .cancelled ∧
      (0 < marks ↔ (begun patience files).length < files.length) := by
  rw [cut]
  split
  case isTrue hleft => exact ⟨1, rfl, iff_of_true Nat.one_pos hleft⟩
  case isFalse hleft => exact ⟨0, rfl, iff_of_false (Nat.lt_irrefl 0) hleft⟩

/-- What a batch comes to with patience for some of its files. -/
structure IsWithin (patience : Option Nat) (files : List SourceFile) (result : BatchResult) :
    Prop where
  accounted : result.accounted = (begun patience files).length
  cancelled_iff : result.cancelled = true ↔ (begun patience files).length < files.length

theorem isWithin_outcomesInOrder {outcomes : List Outcome}
    (houtcomes : setup.outcomesInOrder forcePortable patience files = .ok outcomes) :
    IsWithin patience files (BatchResult.ofOutcomes outcomes) := by
  obtain ⟨marks, hcut, hmarks⟩ := cut_eq_replicate patience files
  rw [outcomesInOrder_eq_mapM, hcut, List.map_replicate] at houtcomes
  obtain ⟨verdicts, hverdicts, hperm⟩ := perm_of_mapM_id (.refl _) houtcomes
  obtain ⟨haccounted, hcancelled⟩ := accounted_of_perm hverdicts hperm
  exact ⟨haccounted, hcancelled.trans hmarks⟩

theorem length_filesOf (hschedule : ∀ turn ∈ schedule, turn.2 < files.length) :
    (filesOf files schedule).length = schedule.length := by
  induction schedule with
  | nil => rfl
  | cons turn rest ih =>
      obtain ⟨hposition, hrest⟩ := List.forall_mem_cons.mp hschedule
      rw [filesOf, List.filterMap_cons, List.getElem?_eq_getElem hposition]
      exact congrArg (· + 1) (ih hrest)

theorem Schedule.Covers.length_eq {count : Nat} (hcovers : Schedule.Covers schedule count) :
    schedule.length = count := by
  have hlength := List.Perm.length_eq hcovers
  rwa [List.length_map, List.length_range] at hlength

theorem isWithin_inFileOrder (hcovers : Schedule.Covers schedule files.length)
    {outcomes : List Outcome}
    (houtcomes : inFileOrder files.length (setup.turns forcePortable files patience schedule) =
      .ok outcomes) :
    IsWithin patience files (BatchResult.ofOutcomes outcomes) := by
  obtain ⟨results, hresults, hperm⟩ := inFileOrder_perm setup forcePortable patience hcovers
  rw [hresults] at houtcomes
  rw [map_snd_turns hcovers.lt_length] at hperm
  obtain ⟨verdicts, hverdicts, hperm⟩ := perm_of_mapM_id hperm houtcomes
  obtain ⟨haccounted, hcancelled⟩ := accounted_of_perm hverdicts hperm
  -- As many turns begin a file as files begin in order.
  have hturns : (begun patience schedule).length = (begun patience files).length := by
    rw [length_begun, length_begun, hcovers.length_eq]
  have hsubset : ∀ turn ∈ begun patience schedule, turn.2 < files.length := by
    intro turn hturn
    cases patience with
    | none => exact hcovers.lt_length turn hturn
    | some limit => exact hcovers.lt_length turn (List.mem_of_mem_take hturn)
  constructor
  · rw [haccounted, length_filesOf hsubset, hturns]
  · rw [hcancelled, hturns, hcovers.length_eq, Nat.sub_pos_iff_lt]

theorem diagnosticsAfter_append_cut (reported : List String) (outcomes : List Outcome)
    (patience : Option Nat) (files : List SourceFile) :
    BatchResult.diagnosticsAfter reported (outcomes ++ cut patience files) =
      BatchResult.diagnosticsAfter reported outcomes := by
  induction outcomes generalizing reported with
  | nil =>
      rw [cut]
      split <;> rfl
  | cons outcome outcomes ih =>
      cases outcome with
      | noGrammar grammar diagnostic =>
          rw [List.cons_append, BatchResult.diagnosticsAfter, BatchResult.diagnosticsAfter, ih, ih]
      | failed diagnostic => exact congrArg (diagnostic :: ·) (ih reported)
      | _ => exact ih reported

/-- But for the mark, what one worker comes to is the result of the files that it begins. -/
theorem result_begun_of_outcomesInOrder {outcomes : List Outcome}
    (houtcomes : setup.outcomesInOrder forcePortable patience files = .ok outcomes) :
    setup.result forcePortable (begun patience files) =
      .ok { BatchResult.ofOutcomes outcomes with cancelled := false } := by
  rw [outcomesInOrder] at houtcomes
  rw [result]
  cases hverdicts : (begun patience files).mapM (setup.verdict forcePortable) with
  | error fault =>
      rw [hverdicts] at houtcomes
      cases houtcomes
  | ok verdicts =>
      rw [hverdicts] at houtcomes
      obtain rfl : verdicts ++ cut patience files = outcomes := Except.ok.inj houtcomes
      have hunmarked := Outcome.any_isCancelled_eq_false (not_isCancelled_of_mapM_verdict hverdicts)
      obtain ⟨marks, hcut, -⟩ := cut_eq_replicate patience files
      simp only [Except.map, BatchResult.ofOutcomes, hunmarked, List.flatMap_append, List.countP_append,
        diagnosticsAfter_append_cut]
      simp [hcut, Outcome.fragment, Outcome.isProcessed, Outcome.isSkipped, List.countP_replicate]

theorem IsWithin.le_of_not_cancelled {result : BatchResult}
    (hwithin : IsWithin patience files result) (hcomplete : result.cancelled = false) :
    ∀ limit, patience = some limit → files.length ≤ limit := by
  rintro limit rfl
  have hall : ¬ (begun (some limit) files).length < files.length := by
    rw [← hwithin.cancelled_iff, hcomplete]
    exact Bool.false_ne_true
  rw [begun, List.length_take] at hall
  omega

theorem begun_eq_self {items : List α} (henough : ∀ limit, patience = some limit → items.length ≤ limit) :
    begun patience items = items := by
  cases patience with
  | none => rfl
  | some limit => exact List.take_of_length_le (henough limit rfl)

/-- Patience for every turn is as good as patience without a limit. -/
theorem turns_eq_turns_none (henough : ∀ limit, patience = some limit → schedule.length ≤ limit) :
    setup.turns forcePortable files patience schedule =
      setup.turns forcePortable files none schedule := by
  induction schedule generalizing patience with
  | nil => rfl
  | cons turn rest ih =>
      obtain ⟨worker, position⟩ := turn
      rw [turns, turns]
      cases files[position]? with
      | none => exact ih fun limit hlimit => Nat.le_of_succ_le (henough limit hlimit)
      | some file =>
          have hleft : patience ≠ some 0 := fun hspent =>
            absurd (henough 0 hspent) (Nat.not_succ_le_zero _)
          have hrest : ∀ limit, patience.map (· - 1) = some limit → rest.length ≤ limit := by
            intro limit hlimit
            obtain ⟨before, hbefore, rfl⟩ := Option.map_eq_some_iff.mp hlimit
            exact Nat.le_sub_one_of_lt (henough before hbefore)
          simp only [verdictWithin, if_neg hleft, ih hrest]
          rfl

/-! ## The patience that is left -/

theorem map_sub_one_map_sub (patience : Option Nat) (count : Nat) :
    (patience.map (· - 1)).map (· - count) = patience.map (· - (count + 1)) := by
  cases patience with
  | none => rfl
  | some limit => exact congrArg some (by simp only [Nat.sub_sub, Nat.add_comm])

theorem patience_process (setup : BatchSetup) (file : SourceFile) (pool : ParserPool)
    (shared : Shared) :
    (setup.process file pool shared).value.2.2.patience = shared.patience.map (· - 1) := by
  rw [process]
  split
  case isTrue hspent =>
    rw [hspent]
    exact hspent
  case isFalse =>
    cases Language.dispatch file.path setup.languages with
    | none => rfl
    | some language =>
        simp only [processAs, Logged.value_bind]
        generalize (ParserPool.parserFor _ _ _ _ _ _).value = asked
        obtain ⟨found, pool', cache, loader⟩ := asked
        rcases found with (fault | failure) | parser <;> rfl

/-- One worker that reads files without a fault leaves the patience that the files do not use up. -/
theorem patience_inOrder {outcomes : List Outcome}
    (hpool : pool.Faithful setup.installed forcePortable)
    (hshared : shared.Faithful setup.installed forcePortable)
    (houtcomes : (setup.inOrder pool shared files).value.1 = .ok outcomes) :
    (setup.inOrder pool shared files).value.2.2.patience =
      shared.patience.map (· - files.length) := by
  induction files generalizing pool shared outcomes with
  | nil => cases hpatience : shared.patience <;> exact hpatience
  | cons file files ih =>
      obtain ⟨pool', shared', hprocess, hpool', hshared', hpatience⟩ :=
        process_spec file hpool hshared
      rw [inOrder, Logged.value_bind, hprocess, verdictWithin] at houtcomes ⊢
      by_cases hspent : shared.patience = some 0
      · rw [if_pos hspent, hspent]
        rw [hspent] at hpatience
        exact hpatience.trans (by simp)
      · rw [if_neg hspent] at houtcomes ⊢
        cases hverdict : setup.verdict forcePortable file with
        | error fault =>
            rw [hverdict] at houtcomes
            cases houtcomes
        | ok outcome =>
            rw [hverdict] at houtcomes
            have hleft {rest : List Outcome}
                (hrest : (setup.inOrder pool' shared' files).value.1 = .ok rest) :
                (setup.inOrder pool' shared' files).value.2.2.patience =
                  shared.patience.map (· - (files.length + 1)) := by
              rw [ih hpool' hshared' hrest, hpatience, map_sub_one_map_sub]
            cases outcome with
            | cancelled => exact absurd hverdict (setup.verdict_ne_cancelled forcePortable file)
            | _ =>
                simp only [Logged.value_bind, Logged.value_pure] at houtcomes ⊢
                cases hrest : (setup.inOrder pool' shared' files).value.1 with
                | error fault =>
                    rw [hrest] at houtcomes
                    cases houtcomes
                | ok rest => exact hleft hrest

theorem patience_follow (setup : BatchSetup) (files : List SourceFile)
    (pools : List (Nat × ParserPool)) (shared : Shared) (schedule : Schedule) :
    (setup.follow files pools shared schedule).value.2.patience =
      shared.patience.map (· - (filesOf files schedule).length) := by
  induction schedule generalizing pools shared with
  | nil => cases hpatience : shared.patience <;> exact hpatience
  | cons turn rest ih =>
      obtain ⟨worker, position⟩ := turn
      rw [follow, filesOf, List.filterMap_cons]
      cases files[position]? with
      | none => exact ih pools shared
      | some file =>
          simp only [Logged.value_bind, Logged.value_pure, ih, patience_process]
          exact map_sub_one_map_sub _ _

/-! ## Batches one after the other -/

/-- A batch and a schedule by which several workers may read it. -/
structure Batch where
  files : List SourceFile
  schedule : Schedule
  covers : Schedule.Covers schedule files.length

/-- Runs a batch: by its schedule if there are several workers and files, and else in order. -/
def runBatch (setup : BatchSetup) (batch : Batch) (pool : ParserPool) (shared : Shared) :
    Logged (Except ImportFault BatchResult × ParserPool × Shared) :=
  if 1 < setup.workers && 1 < batch.files.length then do
    let (result, shared) ← setup.runBy batch.schedule batch.files shared
    pure (result, pool, shared)
  else setup.run batch.files pool shared

/-- The results of batches that are run one after the other, unless a batch ends with a fault. -/
def runBatches (setup : BatchSetup) (pool : ParserPool) (shared : Shared) :
    List Batch → Logged (Except ImportFault (List BatchResult))
  | [] => pure (.ok [])
  | batch :: batches => do
    let (result, pool, shared) ← setup.runBatch batch pool shared
    match result with
    | .error fault => pure (.error fault)
    | .ok result => do
      let results ← setup.runBatches pool shared batches
      pure (results.map (result :: ·))

/-- Without more to say of the order, a batch is dealt out to the workers in turn. -/
theorem runBatch_inTurn (setup : BatchSetup) (files : List SourceFile) (pool : ParserPool)
    (shared : Shared) :
    setup.runBatch ⟨files, Schedule.inTurn setup.workers files.length, Schedule.covers_inTurn _ _⟩
      pool shared = setup.run files pool shared := by
  rw [runBatch]
  split
  case isTrue hseveral =>
    rw [run, outcomes, if_pos hseveral, runBy]
    simp
  case isFalse => rfl

/-- What comes of a batch that is begun with some patience and has a result, and what it leaves of the
patience. -/
structure Uses (setup : BatchSetup) (forcePortable : Bool) (files : List SourceFile)
    (before after : Option Nat) (result : BatchResult) : Prop where
  within : IsWithin before files result
  left : after = before.map (· - files.length)
  /-- One worker reads the first files, and nothing else shows but the mark. -/
  alone : ¬ (1 < setup.workers && 1 < files.length) = true →
    setup.result forcePortable (begun before files) = .ok { result with cancelled := false }
  /-- Without the mark the patience does not show. -/
  complete : result.cancelled = false → setup.result forcePortable files = .ok result

theorem uses_runBy (result : BatchResult)
    (hseveral : (1 < setup.workers && 1 < files.length) = true)
    (hcovers : Schedule.Covers schedule files.length)
    (hshared : shared.Faithful setup.installed forcePortable)
    (hresult : (setup.runBy schedule files shared).value.1 = .ok result) :
    setup.Uses forcePortable files shared.patience
      (setup.runBy schedule files shared).value.2.patience result := by
  have hleft : (setup.runBy schedule files shared).value.2.patience =
      shared.patience.map (· - (filesOf files schedule).length) :=
    patience_follow setup files [] shared schedule
  rw [length_filesOf hcovers.lt_length, hcovers.length_eq] at hleft
  obtain ⟨shared', hrun, -⟩ := runBy_spec schedule files hshared
  rw [hrun] at hresult
  obtain ⟨outcomes, houtcomes, rfl⟩ := map_eq_ok_iff.mp hresult
  have hwithin := isWithin_inFileOrder hcovers houtcomes
  refine ⟨hwithin, hleft, absurd hseveral, fun hcomplete => ?_⟩
  have henough := hwithin.le_of_not_cancelled hcomplete
  rw [← hcovers.length_eq] at henough
  rw [turns_eq_turns_none henough, inFileOrder_turns hcovers] at houtcomes
  rw [BatchSetup.result, houtcomes]
  rfl

theorem uses_run (result : BatchResult)
    (halone : ¬ (1 < setup.workers && 1 < files.length) = true)
    (hpool : pool.Faithful setup.installed forcePortable)
    (hshared : shared.Faithful setup.installed forcePortable)
    (hresult : (setup.run files pool shared).value.1 = .ok result) :
    setup.Uses forcePortable files shared.patience
      (setup.run files pool shared).value.2.2.patience result := by
  have hrun : (setup.run files pool shared).value =
      ((setup.inOrder pool shared files).value.1.map BatchResult.ofOutcomes,
        (setup.inOrder pool shared files).value.2) := by
    rw [run, outcomes, if_neg halone]
    simp only [Logged.value_bind, value_conclude, Logged.value_pure]
  rw [hrun] at hresult ⊢
  obtain ⟨outcomes, houtcomes, rfl⟩ := map_eq_ok_iff.mp hresult
  have hleft := patience_inOrder hpool hshared houtcomes
  obtain ⟨pool', shared', horder, -, -⟩ := inOrder_spec files hpool hshared
  rw [horder] at houtcomes
  have hwithin := isWithin_outcomesInOrder houtcomes
  have hbegun := result_begun_of_outcomesInOrder houtcomes
  refine ⟨hwithin, hleft, fun _ => hbegun, fun hcomplete => ?_⟩
  rw [begun_eq_self (hwithin.le_of_not_cancelled hcomplete), ← hcomplete] at hbegun
  exact hbegun

/-- **What a batch does to the patience**, and the patience to the batch. -/
theorem runBatch_spec (batch : Batch) (hpool : pool.Faithful setup.installed forcePortable)
    (hshared : shared.Faithful setup.installed forcePortable) :
    ∃ outcome pool' shared', (setup.runBatch batch pool shared).value = (outcome, pool', shared') ∧
      pool'.Faithful setup.installed forcePortable ∧
      shared'.Faithful setup.installed forcePortable ∧
      ∀ result, outcome = .ok result →
        setup.Uses forcePortable batch.files shared.patience shared'.patience result := by
  rw [runBatch]
  by_cases hseveral : (1 < setup.workers && 1 < batch.files.length) = true
  · rw [if_pos hseveral]
    have huses := fun result => uses_runBy result hseveral batch.covers hshared
    obtain ⟨shared', hrun, hshared'⟩ := runBy_spec batch.schedule batch.files hshared
    rw [hrun] at huses
    exact ⟨_, pool, shared', by simp only [Logged.value_bind, hrun, Logged.value_pure], hpool,
      hshared', huses⟩
  · rw [if_neg hseveral]
    have huses := fun result => uses_run result hseveral hpool hshared
    obtain ⟨pool', shared', hrun, hpool', hshared'⟩ := run_spec batch.files hpool hshared
    rw [hrun] at huses
    exact ⟨_, pool', shared', hrun, hpool', hshared', huses⟩

/-- How many files batches have together. -/
def fileCount (batches : List Batch) : Nat := (batches.flatMap Batch.files).length

/-- How much of the patience is left for the batch at a position. -/
def leftAt (limit : Nat) (batches : List Batch) (position : Nat) : Nat :=
  limit - fileCount (batches.take position)

/-- What comes of batches for which there is patience for so many files in all. -/
structure KeepsCount (setup : BatchSetup) (forcePortable : Bool) (limit : Nat) (batches : List Batch)
    (results : List BatchResult) : Prop where
  length_eq : results.length = batches.length
  /-- No file is lost, and none is made up. -/
  accounted : BatchResult.accountedIn results = min limit (fileCount batches)
  /-- A batch is cancelled if it has more files than there is patience left for. -/
  cancelled_iff : ∀ position (batch : Batch) (result : BatchResult),
    batches[position]? = some batch → results[position]? = some result →
      (result.cancelled = true ↔ leftAt limit batches position < batch.files.length)
  /-- One worker comes to what a patient run of the first files comes to, whatever was run before. -/
  alone : ∀ position (batch : Batch) (result : BatchResult),
    batches[position]? = some batch → results[position]? = some result →
      setup.workers ≤ 1 ∨ batch.files.length ≤ 1 →
        ∀ pool shared, Between setup.installed forcePortable pool shared → shared.patience = none →
          (setup.run (batch.files.take (leftAt limit batches position)) pool shared).value.1 =
            .ok { result with cancelled := false }

theorem keepsCount_nil (setup : BatchSetup) (forcePortable : Bool) (limit : Nat) :
    setup.KeepsCount forcePortable limit [] [] where
  length_eq := rfl
  accounted := (Nat.min_zero limit).symm
  cancelled_iff := nofun
  alone := nofun

theorem leftAt_zero (limit : Nat) (batches : List Batch) : leftAt limit batches 0 = limit := by
  simp [leftAt, fileCount]

theorem leftAt_succ (limit : Nat) (batch : Batch) (batches : List Batch) (position : Nat) :
    leftAt limit (batch :: batches) (position + 1) =
      leftAt (limit - batch.files.length) batches position := by
  simp only [leftAt, fileCount, List.take_succ_cons, List.flatMap_cons, List.length_append,
    Nat.sub_add_eq]

theorem KeepsCount.cons {batch : Batch} {batches : List Batch} {result : BatchResult}
    {results : List BatchResult} {after : Option Nat}
    (hfirst : setup.Uses forcePortable batch.files (some limit) after result)
    (hrest : setup.KeepsCount forcePortable (limit - batch.files.length) batches results) :
    setup.KeepsCount forcePortable limit (batch :: batches) (result :: results) where
  length_eq := congrArg (· + 1) hrest.length_eq
  accounted := by
    have hcount := hfirst.within.accounted
    rw [length_begun] at hcount
    have hlater := hrest.accounted
    simp only [BatchResult.accountedIn, fileCount, List.foldr_cons, List.flatMap_cons,
      List.length_append, Option.elim] at hcount hlater ⊢
    omega
  cancelled_iff
    | 0, _, _, rfl, rfl => by
        rw [hfirst.within.cancelled_iff, length_begun, leftAt_zero]
        simp only [Option.elim]
        omega
    | position + 1, _, _, hbatch, hresult => by
        rw [leftAt_succ]
        exact hrest.cancelled_iff position _ _ hbatch hresult
  alone
    | 0, _, _, rfl, rfl, halone, pool, shared, hstate, hpatience => by
        rw [run_eq_result setup hstate hpatience, leftAt_zero]
        refine hfirst.alone ?_
        rw [Bool.and_eq_true, decide_eq_true_iff, decide_eq_true_iff]
        omega
    | position + 1, _, _, hbatch, hresult, halone, pool, shared, hstate, hpatience => by
        rw [leftAt_succ]
        exact hrest.alone position _ _ hbatch hresult halone pool shared hstate hpatience

/-- **Cancellation loses no file and makes none up**, wherever in a row of batches the patience ends,
however many workers there are, and in whatever order they read. -/
theorem runBatches_keepsCount (setup : BatchSetup) {results : List BatchResult}
    (hstate : Between setup.installed forcePortable pool shared)
    (hpatience : shared.patience = some limit) (batches : List Batch)
    (hresults : (setup.runBatches pool shared batches).value = .ok results) :
    setup.KeepsCount forcePortable limit batches results := by
  obtain ⟨hpool, hshared⟩ := hstate.faithful
  clear hstate
  induction batches generalizing pool shared limit results with
  | nil =>
      obtain rfl : [] = results := Except.ok.inj hresults
      exact keepsCount_nil setup forcePortable limit
  | cons batch batches ih =>
      obtain ⟨outcome, pool', shared', hrun, hpool', hshared', huses⟩ :=
        runBatch_spec batch hpool hshared
      rw [runBatches, Logged.value_bind, hrun] at hresults
      cases outcome with
      | error fault => cases hresults
      | ok result =>
          obtain ⟨later, hlater, rfl⟩ := map_eq_ok_iff.mp hresults
          have hfirst := huses result rfl
          rw [hpatience] at hfirst
          exact .cons hfirst (ih hfirst.left hlater hpool' hshared')

/-- A batch that two workers read from the last file on. -/
def exampleBatch : Batch := ⟨exampleFiles, [(1, 3), (0, 2), (1, 1), (1, 0)], by decide⟩

/-- The batch again, after a batch without files. -/
def exampleBatches : List Batch := [exampleBatch, ⟨[], [], by decide⟩, exampleBatch]

/-- The patience ends with the first file of the last batch: by the schedule, and by one worker. -/
theorem runBatches_keepsCount_exampleBatches :
    (∃ results, (exampleSetup.runBatches {} { patience := some 5 } exampleBatches).value =
        .ok results ∧ exampleSetup.KeepsCount false 5 exampleBatches results) ∧
      ∃ results, ({ exampleSetup with workers := 1 }.runBatches {} { patience := some 5 }
          exampleBatches).value = .ok results ∧
        { exampleSetup with workers := 1 }.KeepsCount false 5 exampleBatches results := by
  have hnew : Between exampleSetup.installed false {} { patience := some 5 } := .new (some 5)
  constructor
  · exact ⟨_, rfl, runBatches_keepsCount exampleSetup hnew rfl exampleBatches rfl⟩
  · exact ⟨_, rfl, runBatches_keepsCount { exampleSetup with workers := 1 } hnew rfl exampleBatches rfl⟩

end BatchSetup
end TypeAtlas
