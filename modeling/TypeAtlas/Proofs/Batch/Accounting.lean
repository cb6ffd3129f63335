import TypeAtlas.Proofs.Batch.Schedules
import TypeAtlas.Proofs.Results

/-!
# What the outcomes of a batch account for

With a limit of patience not all files of a batch are begun, and which ones are depends on who reads
what when.  `AccountsFor` says of the outcomes of a batch which files they are the outcomes of: a
fault is that of one of these files, and but for the mark of a cancelled batch the outcomes are those
of these files, and of all of them.

One worker accounts for the first files (`accountsFor_inOrder`), several workers for the files of the
first turns (`accountsFor_bySchedule`).
-/

namespace TypeAtlas

/-- The values of a table whose keys are distinct are found under its keys. -/
theorem filterMap_lookup_keys [BEq κ] [LawfulBEq κ] {table : List (κ × α)}
    (hkeys : (table.map Prod.fst).Nodup) :
    ((table.map Prod.fst).filterMap fun key => table.lookup key) = table.map Prod.snd := by
  induction table with
  | nil => rfl
  | cons entry rest ih =>
      obtain ⟨key, value⟩ := entry
      obtain ⟨hkey, hrest⟩ := List.nodup_cons.mp hkeys
      have hlater : ∀ other ∈ rest.map Prod.fst,
          List.lookup other ((key, value) :: rest) = rest.lookup other := by
        intro other hother
        have hne : other ≠ key := fun heq => hkey (heq ▸ hother)
        rw [List.lookup_cons, beq_false_of_ne hne]
      rw [List.map_cons, List.filterMap_cons, List.lookup_cons, beq_self_eq_true]
      simp only [List.map_cons, List.filterMap_congr hlater, ih hrest]

namespace BatchSetup

variable {setup : BatchSetup} {forcePortable : Bool} {patience : Option Nat} {schedule : Schedule}
  {files : List SourceFile}

/-- The outcomes of a batch are those of the given files. -/
structure AccountsFor (setup : BatchSetup) (forcePortable : Bool) (files : List SourceFile)
    (outcomes : Except ImportFault (List Outcome)) : Prop where
  /-- A fault is that of one of the files. -/
  exists_fault : ∀ fault, outcomes = .error fault →
    ∃ file ∈ files, setup.verdict forcePortable file = .error fault
  /-- Without a fault no file has one, and the files have the outcomes but for marks. -/
  mem_iff : ∀ list, outcomes = .ok list →
    (∀ file ∈ files, ∃ outcome, setup.verdict forcePortable file = .ok outcome) ∧
      ∀ outcome, outcome ≠ .cancelled →
        (outcome ∈ list ↔ ∃ file ∈ files, setup.verdict forcePortable file = .ok outcome)

/-- The results of some files, in any order and with marks among them, account for these files. -/
theorem accountsFor_of_mem_iff {results : List (Except ImportFault Outcome)}
    (hresults : ∀ result, result ≠ .ok .cancelled →
      (result ∈ results ↔ ∃ file ∈ files, setup.verdict forcePortable file = result)) :
    setup.AccountsFor forcePortable files (results.mapM id) where
  exists_fault fault hfault := (hresults (.error fault) nofun).mp (mem_of_mapM_id_error hfault)
  mem_iff list hlist := by
    have hok := eq_map_ok_of_mapM_id hlist
    constructor
    · intro file hfile
      have hmem := (hresults _ (setup.verdict_ne_cancelled forcePortable file)).mpr ⟨file, hfile, rfl⟩
      rw [hok, List.mem_map] at hmem
      obtain ⟨outcome, -, houtcome⟩ := hmem
      exact ⟨outcome, houtcome.symm⟩
    · intro outcome hmark
      have hne : (.ok outcome : Except ImportFault Outcome) ≠ .ok .cancelled :=
        fun heq => hmark (Except.ok.inj heq)
      rw [← hresults _ hne, hok, List.mem_map_of_injective fun _ _ => Except.ok.inj]

/-! ## One worker -/

theorem outcomesInOrder_eq_mapM (files : List SourceFile) :
    setup.outcomesInOrder forcePortable patience files =
      ((begun patience files).map (setup.verdict forcePortable) ++
        (cut patience files).map Except.ok).mapM id := by
  rw [List.mapM_append, List.mapM_map, mapM_id_ok, outcomesInOrder]
  rfl

theorem eq_cancelled_of_mem_cut {outcome : Outcome} (houtcome : outcome ∈ cut patience files) :
    outcome = .cancelled := by
  rw [cut] at houtcome
  split at houtcome
  · exact List.mem_singleton.mp houtcome
  · exact absurd houtcome List.not_mem_nil

/-- One worker accounts for the files that it begins. -/
theorem accountsFor_inOrder (files : List SourceFile) :
    setup.AccountsFor forcePortable (begun patience files)
      (setup.outcomesInOrder forcePortable patience files) := by
  rw [outcomesInOrder_eq_mapM]
  apply accountsFor_of_mem_iff
  intro result hresult
  have hcut : result ∉ (cut patience files).map Except.ok := by
    intro hmem
    obtain ⟨outcome, houtcome, rfl⟩ := List.mem_map.mp hmem
    exact hresult (congrArg Except.ok (eq_cancelled_of_mem_cut houtcome))
  rw [List.mem_append, or_iff_left hcut, List.mem_map]

/-! ## Several workers -/

/-- The files of turns. -/
def filesOf (files : List SourceFile) (schedule : Schedule) : List SourceFile :=
  List.filterMap (fun turn => files[turn.2]?) schedule

theorem Schedule.Covers.lt_length (hcovers : Schedule.Covers schedule files.length) :
    ∀ turn ∈ schedule, turn.2 < files.length := fun _ hturn =>
  List.mem_range.mp (hcovers.mem_iff.mp (List.mem_map_of_mem hturn))

/-- The first turns get the verdicts of their files, and the others the mark. -/
theorem map_snd_turns (hschedule : ∀ turn ∈ schedule, turn.2 < files.length) :
    (setup.turns forcePortable files patience schedule).map Prod.snd =
      (filesOf files (begun patience schedule)).map (setup.verdict forcePortable) ++
        List.replicate (schedule.length - (begun patience schedule).length) (.ok .cancelled) := by
  induction schedule generalizing patience with
  | nil => cases patience <;> simp [turns, begun, filesOf]
  | cons turn rest ih =>
      obtain ⟨worker, position⟩ := turn
      obtain ⟨hposition, hrest⟩ := List.forall_mem_cons.mp hschedule
      rw [turns, List.getElem?_eq_getElem hposition]
      simp only [List.map_cons, ih hrest, verdictWithin]
      by_cases hspent : patience = some 0
      · -- No turn after this one begins a file either.
        subst hspent
        simp [begun, filesOf, List.replicate_succ]
      · rw [if_neg hspent, begun_cons hspent]
        simp [filesOf, List.getElem?_eq_getElem hposition]

theorem map_fst_turns (setup : BatchSetup) (forcePortable : Bool) (patience : Option Nat)
    (hschedule : ∀ turn ∈ schedule, turn.2 < files.length) :
    (setup.turns forcePortable files patience schedule).map Prod.fst =
      List.map Prod.snd schedule := by
  induction schedule generalizing patience with
  | nil => rfl
  | cons turn rest ih =>
      obtain ⟨worker, position⟩ := turn
      obtain ⟨hposition, hrest⟩ := List.forall_mem_cons.mp hschedule
      rw [turns, List.getElem?_eq_getElem hposition]
      simp only [List.map_cons, ih _ hrest]

/-- In the order of the files there are the same results as in the order of the turns. -/
theorem inFileOrder_perm (setup : BatchSetup) (forcePortable : Bool) (patience : Option Nat)
    (hcovers : Schedule.Covers schedule files.length) :
    ∃ results : List (Except ImportFault Outcome),
      inFileOrder files.length (setup.turns forcePortable files patience schedule) =
        results.mapM id ∧
      results.Perm ((setup.turns forcePortable files patience schedule).map Prod.snd) := by
  refine ⟨_, rfl, ?_⟩
  have hkeys := map_fst_turns setup forcePortable patience hcovers.lt_length
  have hnodup : ((setup.turns forcePortable files patience schedule).map Prod.fst).Nodup := by
    rw [hkeys, hcovers.nodup_iff]
    exact List.nodup_range
  rw [← filterMap_lookup_keys hnodup, hkeys]
  exact hcovers.symm.filterMap _

/-- Several workers account for the files of the first turns. -/
theorem accountsFor_bySchedule (hcovers : Schedule.Covers schedule files.length) :
    setup.AccountsFor forcePortable (filesOf files (begun patience schedule))
      (inFileOrder files.length (setup.turns forcePortable files patience schedule)) := by
  obtain ⟨results, hresults, hperm⟩ := inFileOrder_perm setup forcePortable patience hcovers
  rw [hresults]
  apply accountsFor_of_mem_iff
  intro result hresult
  have hmark : result ∉ List.replicate (schedule.length - (begun patience schedule).length)
      (.ok .cancelled) := fun hmem => hresult (List.eq_of_mem_replicate hmem)
  rw [hperm.mem_iff, map_snd_turns hcovers.lt_length, List.mem_append, or_iff_left hmark,
    List.mem_map]

/-! ## Batches -/

theorem filesOf_inTurn (files : List SourceFile) (workers : Nat) :
    filesOf files (begun patience (Schedule.inTurn workers files.length)) = begun patience files := by
  rw [filesOf, Schedule.inTurn]
  cases patience with
  | none =>
      rw [begun, begun, List.filterMap_map]
      exact (filterMap_range files files.length).trans (List.take_length ..)
  | some limit =>
      rw [begun, begun, ← List.map_take, List.take_range, List.filterMap_map]
      refine (filterMap_range files (min limit files.length)).trans ?_
      rw [← List.take_take, List.take_length]

/-- A batch accounts for its first files, however many workers there are. -/
theorem accountsFor_fileOutcomes (files : List SourceFile) :
    setup.AccountsFor forcePortable (begun patience files)
      (setup.fileOutcomes forcePortable patience files) := by
  rw [fileOutcomes]
  split
  · rw [← filesOf_inTurn files setup.workers]
    exact accountsFor_bySchedule (Schedule.covers_inTurn _ _)
  · exact accountsFor_inOrder files

end BatchSetup
end TypeAtlas
