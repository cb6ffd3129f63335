import TypeAtlas.Proofs.Batch.Accounting

/-!
# Batches one after the other

Parsers and grammars are kept from one batch to the next, and the result of a batch does not show it.
So a batch of two parts comes to what the parts come to on their own, with one exception: within a
batch a grammar is reported as missing only once.  `BatchResult.followedBy` puts the results of two
parts together, and leaves out what the first part has reported.

That this is all there is to it rests on each diagnostic saying which grammar it is about, if any
(`Outcome.Tells`): then to have reported a grammar before is to leave its diagnostics out
(`diagnosticsAfter_of_mem_iff`).
-/

namespace TypeAtlas

/-! ## Missing grammars -/

/-- What the message says before the name of a missing grammar. -/
def FailureCause.missingWords : String := "Grammar unavailable: "

theorem FailureCause.message_grammarUnavailable (grammar : String) :
    (grammarUnavailable grammar).message = missingWords ++ grammar := rfl

/-- The grammar that a diagnostic reports as missing. -/
def Diagnostic.missingGrammar? (diagnostic : Diagnostic) : Option String :=
  match diagnostic.stage with
  | .grammar =>
    some (String.ofList (diagnostic.message.toList.drop FailureCause.missingWords.toList.length))
  | _ => none

theorem Diagnostic.missingGrammar?_grammarUnavailable (file language grammar : String) :
    missingGrammar? ⟨file, language, .grammar, (FailureCause.grammarUnavailable grammar).message⟩ =
      some grammar := by
  simp only [missingGrammar?, FailureCause.message_grammarUnavailable, String.toList_append,
    List.drop_left, String.ofList_toList]

/-- The failure of a grammar names it. -/
theorem Installation.cause_of_grammar_eq_error {installed : Installation} {forcePortable : Bool}
    {name : String} {failure : Failure}
    (hfailure : installed.grammar forcePortable name = .error failure) :
    failure.cause = .grammarUnavailable name := by
  rw [grammar] at hfailure
  cases hspec : GrammarSpec.find? name with
  | none =>
      rw [hspec] at hfailure
      rw [← Except.error.inj hfailure]
      rfl
  | some spec =>
      have hname : spec.name = name := by simpa using List.find?_some hspec
      simp only [hspec, GrammarSpec.resolve] at hfailure
      cases hnative : spec.nativeGrammar? installed forcePortable with
      | some native =>
          rw [hnative] at hfailure
          cases hfailure
      | none =>
          simp only [hnative, GrammarSpec.packGrammar] at hfailure
          cases hpack : installed.pack?.bind spec.fromPack with
          | ok grammar =>
              rw [hpack] at hfailure
              cases hfailure
          | error fault =>
              rw [hpack] at hfailure
              rw [← Except.error.inj hfailure, ← hname]
              rfl

namespace Diagnostic

/-- Whether a diagnostic reports a missing grammar that earlier ones have reported. -/
def repeats (earlier : List Diagnostic) (diagnostic : Diagnostic) : Bool :=
  diagnostic.missingGrammar?.any fun grammar =>
    earlier.any fun other => other.missingGrammar? = some grammar

variable {first diagnostic : Diagnostic} {earlier : List Diagnostic}

theorem repeats_nil : repeats [] diagnostic = false := by
  rw [repeats]
  cases diagnostic.missingGrammar? <;> rfl

theorem repeats_cons_of_none (hfirst : first.missingGrammar? = none) :
    repeats (first :: earlier) diagnostic = repeats earlier diagnostic := by
  rw [repeats, repeats]
  cases diagnostic.missingGrammar? with
  | none => rfl
  | some grammar => simp [hfirst]

theorem repeats_cons_of_some {grammar : String} (hfirst : first.missingGrammar? = some grammar) :
    repeats (first :: earlier) diagnostic =
      (decide (diagnostic.missingGrammar? = some grammar) || repeats earlier diagnostic) := by
  rw [repeats, repeats]
  cases diagnostic.missingGrammar? with
  | none => rfl
  | some name => simp [hfirst, eq_comm]

end Diagnostic

/-- The diagnostic of an outcome says which grammar it is about, if any. -/
def Outcome.Tells : Outcome → Prop
  | .noGrammar grammar diagnostic => diagnostic.missingGrammar? = some grammar
  | .failed diagnostic => diagnostic.missingGrammar? = none
  | _ => True

namespace BatchResult

/-- The result of a batch from those of its two parts. -/
def followedBy (first second : BatchResult) : BatchResult where
  nodes := first.nodes ++ second.nodes
  edges := first.edges ++ second.edges
  diagnostics := first.diagnostics ++
    second.diagnostics.filter fun diagnostic => !diagnostic.repeats first.diagnostics
  processed := first.processed + second.processed
  skipped := first.skipped + second.skipped
  cancelled := first.cancelled || second.cancelled

/-! ## Diagnostics of the parts -/

/-- Having reported a grammar before leaves its diagnostics out, and no others. -/
theorem diagnosticsAfter_of_mem_iff {reported reportedToo : List String} {grammar : String}
    {outcomes : List Outcome} (houtcomes : ∀ outcome ∈ outcomes, outcome.Tells)
    (hreported : ∀ name, name ∈ reportedToo ↔ name = grammar ∨ name ∈ reported) :
    diagnosticsAfter reportedToo outcomes = (diagnosticsAfter reported outcomes).filter
      fun diagnostic => diagnostic.missingGrammar? ≠ some grammar := by
  induction outcomes generalizing reported reportedToo with
  | nil => rfl
  | cons outcome outcomes ih =>
      obtain ⟨htells, hrest⟩ := List.forall_mem_cons.mp houtcomes
      cases outcome with
      | failed diagnostic =>
          have hnone : diagnostic.missingGrammar? = none := htells
          rw [diagnosticsAfter, diagnosticsAfter, List.filter_cons_of_pos (by simp [hnone]),
            ih hrest hreported]
      | noGrammar name diagnostic =>
          have hname : diagnostic.missingGrammar? = some name := htells
          rw [diagnosticsAfter, diagnosticsAfter]
          by_cases hknown : name ∈ reported
          · rw [if_pos (List.contains_iff_mem.mpr hknown),
              if_pos (List.contains_iff_mem.mpr ((hreported name).mpr (.inr hknown))),
              ih hrest hreported]
          rw [if_neg (mt List.contains_iff_mem.mp hknown)]
          by_cases hsame : name = grammar
          · -- The first report of the grammar itself falls out on both sides.
            subst hsame
            rw [if_pos (List.contains_iff_mem.mpr ((hreported name).mpr (.inl rfl))),
              List.filter_cons_of_neg (by simp [hname])]
            apply ih hrest
            intro other
            rw [hreported, List.mem_cons, ← or_assoc, or_self]
          · have hnew : name ∉ reportedToo := by
              rw [hreported, not_or]
              exact ⟨hsame, hknown⟩
            rw [if_neg (mt List.contains_iff_mem.mp hnew),
              List.filter_cons_of_pos (by simp [hname, hsame])]
            congr 1
            apply ih hrest
            intro other
            rw [List.mem_cons, hreported, List.mem_cons, or_left_comm]
      | _ => exact ih hrest hreported

theorem diagnosticsAfter_append {reported : List String} {outcomes more : List Outcome}
    (houtcomes : ∀ outcome ∈ outcomes, outcome.Tells) (hmore : ∀ outcome ∈ more, outcome.Tells) :
    diagnosticsAfter reported (outcomes ++ more) = diagnosticsAfter reported outcomes ++
      (diagnosticsAfter reported more).filter fun diagnostic =>
        !diagnostic.repeats (diagnosticsAfter reported outcomes) := by
  induction outcomes generalizing reported with
  | nil => simp [diagnosticsAfter, Diagnostic.repeats_nil]
  | cons outcome outcomes ih =>
      obtain ⟨htells, hrest⟩ := List.forall_mem_cons.mp houtcomes
      rw [List.cons_append]
      cases outcome with
      | failed diagnostic =>
          have hnone : diagnostic.missingGrammar? = none := htells
          simp only [diagnosticsAfter, ih hrest, List.cons_append,
            Diagnostic.repeats_cons_of_none hnone]
      | noGrammar grammar diagnostic =>
          rw [diagnosticsAfter, diagnosticsAfter]
          by_cases hknown : reported.contains grammar
          · rw [if_pos hknown, if_pos hknown, ih hrest]
          · -- The second part is told of this grammar now, and not only of the later ones.
            have htold : diagnosticsAfter (grammar :: reported) more =
                (diagnosticsAfter reported more).filter
                  fun diagnostic => diagnostic.missingGrammar? ≠ some grammar :=
              diagnosticsAfter_of_mem_iff hmore fun _ => List.mem_cons
            rw [if_neg hknown, if_neg hknown, ih hrest, htold, List.filter_filter, List.cons_append]
            simp only [Diagnostic.repeats_cons_of_some htells, Bool.not_or, Bool.and_comm, ne_eq,
              decide_not]
      | _ => exact ih hrest

theorem ofOutcomes_append {outcomes more : List Outcome}
    (houtcomes : ∀ outcome ∈ outcomes, outcome.Tells) (hmore : ∀ outcome ∈ more, outcome.Tells) :
    ofOutcomes (outcomes ++ more) = (ofOutcomes outcomes).followedBy (ofOutcomes more) := by
  simp only [ofOutcomes, followedBy, List.flatMap_append, List.countP_append, List.any_append,
    diagnosticsAfter_append houtcomes hmore]

end BatchResult

namespace BatchSetup

variable {setup : BatchSetup} {forcePortable : Bool}

/-! ## Batches of two parts -/

theorem tells_of_verdict {file : SourceFile} {outcome : Outcome}
    (hverdict : setup.verdict forcePortable file = .ok outcome) : outcome.Tells := by
  have hjudged := setup.judged forcePortable file
  rw [hverdict] at hjudged
  cases hjudged with
  | unsupported => trivial
  | read => trivial
  | unparsed => rfl
  | unread => rfl
  | missing hlanguage hgrammar =>
      rw [Outcome.Tells, Failure.message, Installation.cause_of_grammar_eq_error hgrammar]
      exact Diagnostic.missingGrammar?_grammarUnavailable _ _ _

theorem tells_of_mapM_verdict {files : List SourceFile} {outcomes : List Outcome}
    (houtcomes : files.mapM (setup.verdict forcePortable) = .ok outcomes) :
    ∀ outcome ∈ outcomes, outcome.Tells := by
  intro outcome houtcome
  obtain ⟨file, -, hverdict⟩ := exists_mem_of_mapM houtcomes houtcome
  exact tells_of_verdict hverdict

theorem result_append (files more : List SourceFile) :
    setup.result forcePortable (files ++ more) =
      (setup.result forcePortable files).bind fun first =>
        (setup.result forcePortable more).map first.followedBy := by
  rw [result, result, result, List.mapM_append]
  cases hfiles : files.mapM (setup.verdict forcePortable) with
  | error fault => rfl
  | ok outcomes =>
      cases hmore : more.mapM (setup.verdict forcePortable) with
      | error fault => rfl
      | ok outcomesToo =>
          exact congrArg Except.ok (BatchResult.ofOutcomes_append (tells_of_mapM_verdict hfiles)
            (tells_of_mapM_verdict hmore))

/-- **Batches have no influence on later ones.**  Whatever was run before, a batch comes to what it
comes to for somebody new, and a batch of two parts to what the two parts come to for somebody new
each, except that the second part does not report a grammar again. -/
theorem run_append (setup : BatchSetup) {pool : ParserPool} {shared newShared : Shared}
    (hstate : Between setup.installed forcePortable pool shared)
    (hnew : Between setup.installed forcePortable {} newShared)
    (hpatience : shared.patience = none) (hnewPatience : newShared.patience = none)
    (files more : List SourceFile) :
    (setup.run files pool shared).value.1 = (setup.run files {} newShared).value.1 ∧
      (setup.run (files ++ more) pool shared).value.1 =
        (setup.run files {} newShared).value.1.bind fun first =>
          (setup.run more {} newShared).value.1.map first.followedBy := by
  have hfiles : (setup.run files {} newShared).value.1 = setup.result forcePortable files :=
    run_eq_result setup hnew hnewPatience
  have hmore : (setup.run more {} newShared).value.1 = setup.result forcePortable more :=
    run_eq_result setup hnew hnewPatience
  constructor
  · rw [hfiles]
    exact run_eq_result setup hstate hpatience
  · rw [hfiles, hmore, ← result_append]
    exact run_eq_result setup hstate hpatience

/-- Both parts of the batch need the grammar that is missing, and so did the batch before. -/
theorem run_append_again :
    let before := (exampleSetup.run exampleFiles {} {}).value
    before.2.2.patience = none ∧
      (exampleSetup.run (exampleFiles ++ exampleFiles) before.2.1 before.2.2).value.1 =
        (exampleSetup.run exampleFiles {} {}).value.1.bind fun first =>
          (exampleSetup.run exampleFiles {} {}).value.1.map first.followedBy := by
  have hnew : Between exampleSetup.installed false {} {} := .new none
  have hbefore := hnew.run exampleSetup exampleFiles rfl
  exact ⟨rfl, (run_append exampleSetup hbefore hnew rfl rfl exampleFiles exampleFiles).2⟩

end BatchSetup
end TypeAtlas
