import TypeAtlas.Proofs.Batch.Yields
import TypeAtlas.Scan.Run

/-!
# What a scan comes to

`ScanTools.outcome` says without any state what comes of scanning files: it depends on the tools, the
options and the files, and on nothing that earlier scans have left behind.  `KnownGrammars.Reached`
collects what they can leave behind, and all of it is faithful to what is installed
(`Reached.faithful`), so a scan comes to this outcome whatever was scanned before
(`value_scanFiles`).
-/

namespace TypeAtlas

/-- The grammars of earlier scans are those that would be loaded again. -/
structure KnownGrammars.Faithful (installed : Installation) (known : KnownGrammars) : Prop where
  cache : ∀ cache ∈ known.cache, cache.Faithful installed cache.forcePortable
  loader : known.loader.Faithful installed

/-- What earlier scans leave behind.  They may have been asked for anything, but nothing was installed
or removed since. -/
inductive KnownGrammars.Reached (installed : Installation) : KnownGrammars → Prop where
  /-- Nothing was scanned so far. -/
  | new : Reached installed {}
  | scanFiles {known} (tools : ScanTools) (options : ScanOptions) (input : ScanInput)
      (scannedAt : Timestamp) (hinstalled : tools.installed = installed)
      (before : Reached installed known) :
      Reached installed (tools.scanFiles options input scannedAt known).value.2
  | scanDirectory {known} (tools : ScanTools) (options : ScanOptions) (disk : Disk) (path : String)
      (repository : Option Repository) (hinstalled : tools.installed = installed)
      (before : Reached installed known) :
      Reached installed (tools.scanDirectory options disk path repository known).value.2
  | scanRevision {known} (tools : ScanTools) (options : ScanOptions) (disk : Disk)
      (path ref : String) (repository : Option Repository)
      (hinstalled : tools.installed = installed) (before : Reached installed known) :
      Reached installed (tools.scanRevision options disk path ref repository known).value.2

/-- An earlier cache is taken over if it was for the same choice of sources. -/
theorem GrammarCache.faithful_shared {installed : Installation} {earlier : Option GrammarCache}
    (hearlier : ∀ cache ∈ earlier, cache.Faithful installed cache.forcePortable)
    (forcePortable : Bool) :
    (shared earlier forcePortable).Faithful installed forcePortable := by
  cases earlier with
  | none => exact faithful_empty installed forcePortable
  | some cache =>
      rw [shared]
      split
      next hforced => exact eq_of_beq hforced ▸ hearlier cache rfl
      next => exact faithful_empty installed forcePortable

-- The point in time and the first path of the examples of scans.
theorem Timestamp.inRange_newYear : Timestamp.InRange 2026 1 1 0 0 0 0 (some 0) := by decide

theorem SourceFile.firstPath_ne : "A.java" ≠ "" := by decide

namespace ScanTools

variable {tools : ScanTools} {known : KnownGrammars}

/-- What comes of scanning files for some languages. -/
def outcomeFor (tools : ScanTools) (options : ScanOptions) (languages : Option (List Language))
    (input : ScanInput) (scannedAt : Timestamp) : Except ScanFault ScanResult :=
  match (tools.setup options languages).result options.settings.forcePortable input.files with
  | .error fault => .error (.noParser fault)
  | .ok batch => .ok (assemble batch input.commitSha scannedAt)

/-- What comes of scanning files. -/
def outcome (tools : ScanTools) (options : ScanOptions) (input : ScanInput)
    (scannedAt : Timestamp) : Except ScanFault ScanResult :=
  match options.languages with
  | .error fault => .error fault
  | .ok languages => tools.outcomeFor options languages input scannedAt

/-- A scan comes to a graph if no file is at fault, and then the graph is made of what comes of each
file. -/
theorem outcome_eq_ok_iff {options : ScanOptions} {languages : Option (List Language)}
    {input : ScanInput} {scannedAt : Timestamp} {result : ScanResult}
    (hlanguages : options.languages = .ok languages) :
    tools.outcome options input scannedAt = .ok result ↔
      (tools.setup options languages).Succeeds options.settings.forcePortable input.files ∧
        assemble (BatchResult.ofOutcomes (input.files.map
            ((tools.setup options languages).outcomeOf options.settings.forcePortable)))
          input.commitSha scannedAt = result := by
  rw [outcome, hlanguages]
  simp only [outcomeFor]
  cases hbatch : (tools.setup options languages).result options.settings.forcePortable
      input.files with
  | error fault =>
      constructor
      · exact nofun
      · rintro ⟨hok, -⟩
        exact absurd (hbatch.symm.trans (BatchSetup.result_eq_ok_iff.mpr ⟨hok, rfl⟩)) nofun
  | ok batch =>
      obtain ⟨hok, rfl⟩ := BatchSetup.result_eq_ok_iff.mp hbatch
      rw [Except.ok.injEq]
      exact ⟨fun hresult => ⟨hok, hresult⟩, And.right⟩

/-- A scan that returns got its languages. -/
theorem exists_languages {options : ScanOptions} {input : ScanInput} {scannedAt : Timestamp}
    {result : ScanResult}
    (hresult : tools.outcome options input scannedAt = .ok result) :
    ∃ languages, options.languages = .ok languages := by
  rw [outcome] at hresult
  cases hlanguages : options.languages with
  | error fault =>
      rw [hlanguages] at hresult
      cases hresult
  | ok languages => exact ⟨languages, rfl⟩

theorem faithful_shared (options : ScanOptions) (hknown : known.Faithful tools.installed) :
    (shared options known).Faithful tools.installed options.settings.forcePortable :=
  ⟨GrammarCache.faithful_shared hknown.cache options.settings.forcePortable, hknown.loader⟩

theorem scanInput_spec (options : ScanOptions) (languages : Option (List Language))
    (input : ScanInput) (scannedAt : Timestamp) (hknown : known.Faithful tools.installed) :
    ∃ known', (tools.scanInput options languages input scannedAt known).value =
        (tools.outcomeFor options languages input scannedAt, known') ∧
      known'.Faithful tools.installed := by
  have hpool : ParserPool.Faithful (tools.setup options languages).installed
      options.settings.forcePortable {} := ParserPool.faithful_empty _ _
  obtain ⟨pool', shared', hrun, -, hshared'⟩ :=
    BatchSetup.run_spec input.files hpool (faithful_shared options hknown)
  have hpatience : (shared options known).patience = none := rfl
  rw [hpatience, BatchSetup.fileOutcomes_none] at hrun
  refine ⟨⟨some shared'.cache, shared'.loader⟩, ?_, ?_, hshared'.loader⟩
  · rw [scanInput, Logged.value_bind, hrun, outcomeFor, BatchSetup.result]
    cases (input.files.mapM ((tools.setup options languages).verdict
      options.settings.forcePortable)).map BatchResult.ofOutcomes <;> rfl
  · rintro cache ⟨rfl⟩
    rw [hshared'.cache.forced]
    exact hshared'.cache

theorem scanFiles_spec (options : ScanOptions) (input : ScanInput) (scannedAt : Timestamp)
    (hknown : known.Faithful tools.installed) :
    ∃ known', (tools.scanFiles options input scannedAt known).value =
        (tools.outcome options input scannedAt, known') ∧ known'.Faithful tools.installed := by
  rw [scanFiles, outcome]
  cases options.languages with
  | error fault => exact ⟨known, rfl, hknown⟩
  | ok languages => exact scanInput_spec options languages input scannedAt hknown

theorem faithful_scanDirectory (options : ScanOptions) (disk : Disk) (path : String)
    (repository : Option Repository) (hknown : known.Faithful tools.installed) :
    (tools.scanDirectory options disk path repository known).value.2.Faithful tools.installed := by
  rw [scanDirectory]
  cases options.languages with
  | error fault => exact hknown
  | ok languages =>
      simp only [Logged.value_bind]
      cases (directoryInput disk path repository (Language.allExtensions languages)
          options.settings.ignoredDirs).value with
      | error fault => exact hknown
      | ok input =>
          obtain ⟨known', hscan, hknown'⟩ :=
            scanInput_spec options languages input tools.now hknown
          simp only [hscan]
          exact hknown'

theorem faithful_scanRevision (options : ScanOptions) (disk : Disk) (path ref : String)
    (repository : Option Repository) (hknown : known.Faithful tools.installed) :
    (tools.scanRevision options disk path ref repository known).value.2.Faithful
      tools.installed := by
  rw [scanRevision]
  cases options.languages with
  | error fault => exact hknown
  | ok languages =>
      simp only [Logged.value_within, Logged.value_bind]
      cases (revisionInput disk path ref repository (Language.allExtensions languages)
          options.settings.ignoredDirs).value with
      | error fault => exact hknown
      | ok input? =>
          cases input? with
          | none => exact hknown
          | some input =>
              obtain ⟨known', hscan, hknown'⟩ :=
                scanInput_spec options languages input tools.now hknown
              simp only [hscan]
              exact hknown'

end ScanTools

theorem KnownGrammars.Reached.faithful {installed : Installation} {known : KnownGrammars}
    (hreached : Reached installed known) : known.Faithful installed := by
  induction hreached with
  | new => exact ⟨nofun, Loader.faithful_empty installed⟩
  | scanFiles tools options input scannedAt hinstalled before ih =>
      subst hinstalled
      obtain ⟨known', hscan, hknown'⟩ := ScanTools.scanFiles_spec options input scannedAt ih
      rw [hscan]
      exact hknown'
  | scanDirectory tools options disk path repository hinstalled before ih =>
      subst hinstalled
      exact ScanTools.faithful_scanDirectory options disk path repository ih
  | scanRevision tools options disk path ref repository hinstalled before ih =>
      subst hinstalled
      exact ScanTools.faithful_scanRevision options disk path ref repository ih

/-- **What a scan comes to** does not depend on what was scanned before. -/
theorem ScanTools.value_scanFiles {tools : ScanTools} {known : KnownGrammars}
    (options : ScanOptions) (input : ScanInput) (scannedAt : Timestamp)
    (hreached : known.Reached tools.installed) :
    (tools.scanFiles options input scannedAt known).value.1 =
      tools.outcome options input scannedAt := by
  obtain ⟨known', hscan, -⟩ := scanFiles_spec options input scannedAt hreached.faithful
  rw [hscan]

end TypeAtlas
