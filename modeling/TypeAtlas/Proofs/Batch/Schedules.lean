import Mathlib.Data.List.Basic
import TypeAtlas.Proofs.Batch.Verdict

/-!
# Every schedule gives the result of one worker

A batch without a limit of patience has one result, `BatchSetup.result`, and this is what comes of it
whoever reads which file when.  A schedule has to give every file one turn; which workers it names,
and in which order the turns come, is left open.

The two runs that `run_eq_alone` compares need not begin in the same state.  `Between` collects the
states in which a batch can begin: new ones, and those that batches leave behind.
-/

namespace TypeAtlas

namespace BatchSetup

/-- A schedule gives each of so many files exactly one turn. -/
def Schedule.Covers (schedule : Schedule) (files : Nat) : Prop :=
  (List.map Prod.snd schedule).Perm (List.range files)

instance (schedule : Schedule) (files : Nat) : Decidable (Schedule.Covers schedule files) :=
  inferInstanceAs (Decidable (List.Perm _ _))

theorem Schedule.covers_inTurn (workers files : Nat) : Covers (inTurn workers files) files := by
  rw [Covers, inTurn, List.map_map]
  exact .of_eq (List.map_id _)

/-- Runs a batch with several workers by a schedule. -/
def runBy (setup : BatchSetup) (schedule : Schedule) (files : List SourceFile) (shared : Shared) :
    Logged (Except ImportFault BatchResult × Shared) := do
  let (outcomes, shared) ← setup.bySchedule schedule shared files
  let result ← conclude outcomes
  pure (result, shared)

/-! ## States -/

/-- The states of one worker's parsers and of what all workers share in which a batch may begin. -/
inductive Between (installed : Installation) (forcePortable : Bool) : ParserPool → Shared → Prop where
  /-- Nothing was read so far. -/
  | new (patience : Option Nat) :
      Between installed forcePortable {} { cache := { forcePortable }, patience }
  /-- Somebody else begins with what is shared, and with patience of their own. -/
  | joined {pool shared} (patience : Option Nat) (before : Between installed forcePortable pool shared) :
      Between installed forcePortable {} { shared with patience }
  /-- A batch was run. -/
  | run {pool shared} (setup : BatchSetup) (files : List SourceFile)
      (hinstalled : setup.installed = installed) (before : Between installed forcePortable pool shared) :
      Between installed forcePortable (setup.run files pool shared).value.2.1
        (setup.run files pool shared).value.2.2
  /-- A batch was run by a schedule. -/
  | runBy {pool shared} (setup : BatchSetup) (schedule : Schedule) (files : List SourceFile)
      (hinstalled : setup.installed = installed) (before : Between installed forcePortable pool shared) :
      Between installed forcePortable pool (setup.runBy schedule files shared).value.2

variable {setup : BatchSetup} {installed : Installation} {forcePortable : Bool}
  {pool : ParserPool} {shared : Shared} {schedule : Schedule}

theorem value_conclude (outcomes : Except ImportFault (List Outcome)) :
    (conclude outcomes).value = outcomes.map BatchResult.ofOutcomes := by
  cases outcomes <;> rfl

/-- What comes of the files of a batch. -/
def fileOutcomes (setup : BatchSetup) (forcePortable : Bool) (patience : Option Nat)
    (files : List SourceFile) : Except ImportFault (List Outcome) :=
  if 1 < setup.workers && 1 < files.length then
    inFileOrder files.length (setup.turns forcePortable files patience
      (Schedule.inTurn setup.workers files.length))
  else setup.outcomesInOrder forcePortable patience files

theorem run_spec (files : List SourceFile) (hpool : pool.Faithful setup.installed forcePortable)
    (hshared : shared.Faithful setup.installed forcePortable) :
    ∃ pool' shared', (setup.run files pool shared).value =
        ((setup.fileOutcomes forcePortable shared.patience files).map BatchResult.ofOutcomes, pool',
          shared') ∧
      pool'.Faithful setup.installed forcePortable ∧
      shared'.Faithful setup.installed forcePortable := by
  rw [run, Logged.value_bind, outcomes, fileOutcomes]
  cases 1 < setup.workers && 1 < files.length with
  | true =>
      obtain ⟨shared', hturns, hshared'⟩ := bySchedule_spec files
        (Schedule.inTurn setup.workers files.length) hshared
      refine ⟨pool, shared', ?_, hpool, hshared'⟩
      simp only [if_true, Logged.value_bind, hturns, value_conclude, Logged.value_pure]
  | false =>
      obtain ⟨pool', shared', horder, hpool', hshared'⟩ := inOrder_spec files hpool hshared
      refine ⟨pool', shared', ?_, hpool', hshared'⟩
      simp only [Bool.false_eq_true, if_false, Logged.value_bind, horder, value_conclude,
        Logged.value_pure]

theorem runBy_spec (schedule : Schedule) (files : List SourceFile)
    (hshared : shared.Faithful setup.installed forcePortable) :
    ∃ shared', (setup.runBy schedule files shared).value =
        ((inFileOrder files.length
          (setup.turns forcePortable files shared.patience schedule)).map BatchResult.ofOutcomes,
            shared') ∧
      shared'.Faithful setup.installed forcePortable := by
  obtain ⟨shared', hturns, hshared'⟩ := bySchedule_spec files schedule hshared
  refine ⟨shared', ?_, hshared'⟩
  simp only [runBy, Logged.value_bind, hturns, value_conclude, Logged.value_pure]

/-- A batch begins with faithful parsers and findings, whatever was run before. -/
theorem Between.faithful (hstate : Between installed forcePortable pool shared) :
    pool.Faithful installed forcePortable ∧ shared.Faithful installed forcePortable := by
  induction hstate with
  | new patience =>
      exact ⟨ParserPool.faithful_empty _ _, GrammarCache.faithful_empty _ _, Loader.faithful_empty _⟩
  | joined patience before ih => exact ⟨ParserPool.faithful_empty _ _, ih.2.cache, ih.2.loader⟩
  | run setup files hinstalled before ih =>
      subst hinstalled
      obtain ⟨pool', shared', hrun, hpool', hshared'⟩ := run_spec files ih.1 ih.2
      rw [hrun]
      exact ⟨hpool', hshared'⟩
  | runBy setup schedule files hinstalled before ih =>
      subst hinstalled
      obtain ⟨shared', hrun, hshared'⟩ := runBy_spec schedule files ih.2
      rw [hrun]
      exact ⟨ih.1, hshared'⟩

/-! ## The result without a limit -/

/-- What comes of a batch. -/
def result (setup : BatchSetup) (forcePortable : Bool) (files : List SourceFile) :
    Except ImportFault BatchResult :=
  (files.mapM (setup.verdict forcePortable)).map BatchResult.ofOutcomes

theorem outcomesInOrder_none (files : List SourceFile) :
    setup.outcomesInOrder forcePortable none files = files.mapM (setup.verdict forcePortable) := by
  rw [outcomesInOrder, begun, cut, begun, if_neg (Nat.lt_irrefl _)]
  cases files.mapM (setup.verdict forcePortable) with
  | error fault => rfl
  | ok outcomes => exact congrArg Except.ok (List.append_nil outcomes)

theorem lookup_turns (files : List SourceFile) (schedule : Schedule) (position : Nat) :
    (setup.turns forcePortable files none schedule).lookup position =
      if position ∈ schedule.map Prod.snd then (files[position]?).map (setup.verdict forcePortable)
      else none := by
  induction schedule with
  | nil => rfl
  | cons turn rest ih =>
      obtain ⟨worker, taken⟩ := turn
      rw [turns]
      by_cases hposition : position = taken
      · subst hposition
        cases hfile : files[position]? with
        | none => simp [hfile, ih]
        | some file => simp [verdictWithin]
      · have htaken : (position == taken) = false := beq_false_of_ne hposition
        cases hfile : files[taken]? with
        | none => simp only [ih, List.map_cons, List.mem_cons, hposition, false_or]
        | some file =>
            simp only [List.lookup_cons, htaken, Option.map_none, ih, List.map_cons, List.mem_cons,
              hposition, false_or]

theorem filterMap_range (items : List α) (count : Nat) :
    ((List.range count).filterMap fun position => items[position]?) = items.take count := by
  induction count with
  | zero => rfl
  | succ count ih =>
      rw [List.range_succ, List.filterMap_append, ih, List.take_add_one]
      cases hitem : items[count]? <;> simp [hitem]

theorem inFileOrder_turns {files : List SourceFile} (hcovers : Schedule.Covers schedule files.length) :
    inFileOrder files.length (setup.turns forcePortable files none schedule) =
      files.mapM (setup.verdict forcePortable) := by
  have hlookup : ∀ position ∈ List.range files.length,
      (setup.turns forcePortable files none schedule).lookup position =
        (files[position]?).map (setup.verdict forcePortable) := by
    intro position hposition
    rw [lookup_turns, if_pos (hcovers.mem_iff.mpr hposition)]
  have hverdicts : ((List.range files.length).filterMap fun position =>
      (setup.turns forcePortable files none schedule).lookup position) =
        files.map (setup.verdict forcePortable) := by
    rw [List.filterMap_congr hlookup, ← List.map_filterMap, filterMap_range, List.take_length]
  rw [inFileOrder, hverdicts, List.mapM_map]
  rfl

/-- **The result of a batch that a schedule distributes** is that of its files. -/
theorem runBy_eq_result {files : List SourceFile}
    (hstate : Between setup.installed forcePortable pool shared) (hpatience : shared.patience = none)
    (hcovers : Schedule.Covers schedule files.length) :
    (setup.runBy schedule files shared).value.1 = setup.result forcePortable files := by
  obtain ⟨shared', hrun, -⟩ := runBy_spec schedule files hstate.faithful.2
  rw [hrun, hpatience, inFileOrder_turns hcovers, result]

theorem fileOutcomes_none (files : List SourceFile) :
    setup.fileOutcomes forcePortable none files = files.mapM (setup.verdict forcePortable) := by
  rw [fileOutcomes, inFileOrder_turns (Schedule.covers_inTurn _ _), outcomesInOrder_none, ite_self]

/-- **The result of a batch** is that of its files, however many workers there are. -/
theorem run_eq_result (setup : BatchSetup) {files : List SourceFile}
    (hstate : Between setup.installed forcePortable pool shared)
    (hpatience : shared.patience = none) :
    (setup.run files pool shared).value.1 = setup.result forcePortable files := by
  obtain ⟨hpool, hshared⟩ := hstate.faithful
  obtain ⟨pool', shared', hrun, -, -⟩ := run_spec files hpool hshared
  rw [hrun, hpatience, fileOutcomes_none, result]

/-- **Several workers and one worker come to the same result**, or end with the same fault: by every
schedule that gives each file its turn, and by the one that deals the files out. -/
theorem run_eq_alone {crewPool : ParserPool} {crewShared : Shared} {files : List SourceFile}
    (halone : Between setup.installed forcePortable pool shared)
    (hcrew : Between setup.installed forcePortable crewPool crewShared)
    (hpatience : shared.patience = none) (hcrewPatience : crewShared.patience = none)
    (hcovers : Schedule.Covers schedule files.length) :
    (setup.runBy schedule files crewShared).value.1 =
        ({ setup with workers := 1 }.run files pool shared).value.1 ∧
      (setup.run files crewPool crewShared).value.1 =
        ({ setup with workers := 1 }.run files pool shared).value.1 := by
  -- The result does not depend on the number of workers, which the verdicts do not read.
  have hresult : ({ setup with workers := 1 }.run files pool shared).value.1 =
      setup.result forcePortable files :=
    run_eq_result { setup with workers := 1 } halone hpatience
  constructor
  · rw [hresult]
    exact runBy_eq_result hcrew hcrewPatience hcovers
  · rw [hresult]
    exact run_eq_result setup hcrew hcrewPatience

/-- Two workers, a pack with two of the grammars, and texts that nothing can parse. -/
def exampleSetup : BatchSetup where
  installed := { pack := .installed ⟨["java", "go"]⟩ }
  parse := fun _ text => .error text
  workers := 2

/-- Two files that share a missing grammar, and two that do not need it. -/
def exampleFiles : List SourceFile :=
  [⟨"a.swift", "", by decide⟩, ⟨"B.java", "class", by decide⟩, ⟨"c.swift", "", by decide⟩,
    ⟨"d.txt", "", by decide⟩]

theorem run_eq_alone_backward :
    Schedule.Covers [(1, 3), (0, 2), (1, 1), (1, 0)] exampleFiles.length ∧
      (exampleSetup.runBy [(1, 3), (0, 2), (1, 1), (1, 0)] exampleFiles {}).value.1 =
        ({ exampleSetup with workers := 1 }.run exampleFiles {} {}).value.1 := by
  have hcovers : Schedule.Covers [(1, 3), (0, 2), (1, 1), (1, 0)] exampleFiles.length := by decide
  have hnew : Between exampleSetup.installed false {} {} := .new none
  exact ⟨hcovers, (run_eq_alone hnew hnew rfl rfl hcovers).1⟩

end BatchSetup
end TypeAtlas
