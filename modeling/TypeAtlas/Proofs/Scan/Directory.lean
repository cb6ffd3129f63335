import TypeAtlas.Proofs.Graph.Comparison
import TypeAtlas.Proofs.Scan.Outcome
import TypeAtlas.Proofs.Source.Unscanned

/-!
# Scanning a directory once more

A scan of a directory comes to what scanning its files comes to (`scanDirectory_eq_ok_iff`).  Neither the
time nor what was scanned in between shows in the types and references that are found, and a file that
was written in between shows only if a scan takes it (`scanDirectory_put`).
-/

namespace TypeAtlas

/-- Two graphs that differ in nothing but when and of what commit they were taken. -/
structure Graph.Matches (graph other : Graph) : Prop where
  nodes : other.nodes = graph.nodes
  edges : other.edges = graph.edges

/-- Between such graphs there is no difference. -/
theorem Graph.Matches.diff_eq {graph other : Graph} (hmatches : graph.Matches other) :
    graph.diff other = {} := by
  have hnodes : newcomers Node.key graph.nodes graph.nodes = [] :=
    (newcomers_eq_nil_iff _).mpr fun _ => id
  have hedges : newcomers Edge.key graph.edges graph.edges = [] :=
    (newcomers_eq_nil_iff _).mpr fun _ => id
  rw [diff, hmatches.nodes, hmatches.edges, hnodes, hedges]

namespace ScanTools

variable {tools tools' : ScanTools} {options : ScanOptions} {disk : Disk} {path : String}
  {repository : Option Repository} {known known' : KnownGrammars}

/-- What a scan of a directory comes to depends on earlier scans as little as what a scan of its files
comes to. -/
theorem scanDirectory_eq_ok_iff {result : ScanResult} (hknown : known.Reached tools.installed) :
    (tools.scanDirectory options disk path repository known).value.1 = .ok result ↔
      ∃ languages input, options.languages = .ok languages ∧
        (directoryInput disk path repository (Language.allExtensions languages)
          options.settings.ignoredDirs).value = .ok input ∧
        tools.outcomeFor options languages input tools.now = .ok result := by
  rw [scanDirectory]
  cases options.languages with
  | error fault =>
      constructor
      · intro hresult
        cases hresult
      · rintro ⟨languages, input, hlanguages, -⟩
        cases hlanguages
  | ok languages =>
      simp only [Logged.value_bind, Except.ok.injEq, exists_and_left, exists_eq_left']
      cases (directoryInput disk path repository (Language.allExtensions languages)
          options.settings.ignoredDirs).value with
      | error fault =>
          constructor
          · intro hresult
            cases hresult
          · rintro ⟨input, hinput, -⟩
            cases hinput
      | ok input =>
          obtain ⟨known', hscan, -⟩ :=
            scanInput_spec options languages input tools.now hknown.faithful
          simp only [hscan, Except.ok.injEq, exists_eq_left']

/-- The time of a scan is the time of its graph, and that is all that it is for. -/
theorem outcomeFor_at {languages : Option (List Language)} {input : ScanInput}
    {scannedAt : Timestamp} {result : ScanResult} (hinstalled : tools'.installed = tools.installed)
    (hparse : tools'.parse = tools.parse)
    (hresult : tools.outcomeFor options languages input scannedAt = .ok result)
    (scannedAt' : Timestamp) :
    result.graph.scannedAt = scannedAt ∧
      ∃ result', tools'.outcomeFor options languages input scannedAt' = .ok result' ∧
        result.graph.Matches result'.graph := by
  have hsetup : tools'.setup options languages = tools.setup options languages := by
    rw [setup, setup, hinstalled, hparse]
  rw [outcomeFor] at hresult
  rw [outcomeFor, hsetup]
  cases hbatch : (tools.setup options languages).result options.settings.forcePortable
      input.files with
  | error fault =>
      rw [hbatch] at hresult
      cases hresult
  | ok batch =>
      rw [hbatch] at hresult
      obtain rfl := Except.ok.inj hresult
      exact ⟨rfl, _, rfl, ⟨rfl, rfl⟩⟩

theorem directoryInput_put {place : Location} (hroom : disk.tree.HasRoom place)
    (octets : List UInt8) {extensions ignored : List String} {input : ScanInput}
    (hunscanned : ¬ (disk.put place (.file octets)).Scans path extensions ignored place)
    (hinput : (directoryInput disk path repository extensions ignored).value = .ok input) :
    (directoryInput (disk.put place (.file octets)) path repository extensions ignored).value =
      .ok input := by
  rw [directoryInput] at hinput ⊢
  rw [History.ofDirectory_put hroom]
  simp only [Logged.value_bind] at hinput ⊢
  cases hwalk : (disk.walk path extensions ignored).value with
  | error fault =>
      rw [hwalk] at hinput
      cases hinput
  | ok files =>
      rw [Disk.value_walk_put hroom octets hunscanned hwalk]
      rw [hwalk] at hinput
      exact hinput

/-- **Scanning a directory once more** finds the same types and references, although a file was written
in between that is not one that a scan takes. -/
theorem scanDirectory_put {place : Location} (hroom : disk.tree.HasRoom place)
    (octets : List UInt8) {result : ScanResult} (hknown : known.Reached tools.installed)
    (hknown' : known'.Reached tools.installed) (hinstalled : tools'.installed = tools.installed)
    (hparse : tools'.parse = tools.parse)
    (hunscanned : ∀ languages, options.languages = .ok languages →
      ¬ (disk.put place (.file octets)).Scans path (Language.allExtensions languages)
        options.settings.ignoredDirs place)
    (hresult : (tools.scanDirectory options disk path repository known).value.1 = .ok result) :
    ∃ result', (tools'.scanDirectory options (disk.put place (.file octets)) path repository
        known').value.1 = .ok result' ∧
      result.graph.Matches result'.graph := by
  obtain ⟨languages, input, hlanguages, hinput, houtcome⟩ :=
    (scanDirectory_eq_ok_iff hknown).mp hresult
  have hinput' := directoryInput_put hroom octets (hunscanned languages hlanguages) hinput
  obtain ⟨-, result', houtcome', hmatches⟩ :=
    outcomeFor_at hinstalled hparse houtcome tools'.now
  refine ⟨result', ?_, hmatches⟩
  exact (scanDirectory_eq_ok_iff (hinstalled ▸ hknown')).mpr
    ⟨languages, input, hlanguages, hinput', houtcome'⟩

/-- The graph of a scan has the time of the scan. -/
theorem scannedAt_scanDirectory {result : ScanResult} (hknown : known.Reached tools.installed)
    (hresult : (tools.scanDirectory options disk path repository known).value.1 = .ok result) :
    result.graph.scannedAt = tools.now := by
  obtain ⟨languages, input, -, -, houtcome⟩ := (scanDirectory_eq_ok_iff hknown).mp hresult
  exact (outcomeFor_at rfl rfl houtcome tools.now).1

end ScanTools
end TypeAtlas
