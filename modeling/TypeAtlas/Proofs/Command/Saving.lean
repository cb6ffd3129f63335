import TypeAtlas.Command.Run
import TypeAtlas.Proofs.Graph.WrittenForm
import TypeAtlas.Proofs.Json.LineEnds
import TypeAtlas.Proofs.Scan.Rows
import TypeAtlas.Proofs.Text.Octets

/-!
# Saved scans

`CommandWorld.Saves` says what it takes for a scan to be saved: there are settings, the scan comes
to a result, and its graph is written.  That is the case if the command ends with code zero
(`exists_saves`), and then nothing is changed but the disk, the settings and the grammars
(`Saves.value_run`).

The file has the document of the graph in it (`Saves.exists_place`), and the graph is read back from
there, as its line numbers are rows of trees and so not too long for a reader
(`Saves.readBaseline_eq`).
-/

namespace TypeAtlas

/-- The arguments of the program ask for a command. -/
def Request.IsAskedBy (request : Request) (arguments : List String) : Prop :=
  ∃ verbose name rest, ProgramCall.ofArguments arguments = .command verbose name rest ∧
    CommandCall.ofArguments name rest = .request request

theorem CommandResult.exitCode_faulted (fault : CommandFault) : (faulted fault).exitCode = 1 := by
  rcases fault with fault | (failure | fault | ⟨directory, worktree⟩ | fault | report | -) | message <;>
    rfl

namespace CommandWorld

variable {world : CommandWorld} {state : CommandState} {settings : Settings}

/-! ## Commands -/

theorem value_run_of_error {fault : SettingsFault} {arguments : List String} {request : Request}
    (hasked : request.IsAskedBy arguments)
    (hsettings : world.settings { state with settings := none } = .error fault) :
    (world.run state arguments).value =
      (.faulted (.settings fault), { state with settings := none }) := by
  obtain ⟨verbose, name, rest, hcall, hrequest⟩ := hasked
  rw [run]
  simp only [hcall, hsettings]
  rfl

theorem value_run_of_ok {arguments : List String} {request : Request}
    (hasked : request.IsAskedBy arguments)
    (hsettings : world.settings { state with settings := none } = .ok settings) :
    ∃ logging, (world.run state arguments).value =
      ({ (world.runRequest settings { state with settings := some settings } request).value.1 with
          logging },
        (world.runRequest settings { state with settings := some settings } request).value.2) := by
  obtain ⟨verbose, name, rest, hcall, hrequest⟩ := hasked
  refine ⟨[(logLevel settings verbose, settings.logFormat)], ?_⟩
  rw [run]
  simp only [hcall, hsettings, runCommand, hrequest]
  rfl

/-! ## Saving -/

/-- A scan of a directory comes to a result whose graph is written to a file, which gives a disk. -/
structure Saves (world : CommandWorld) (state : CommandState) (directory file : String)
    (settings : Settings) (result : ScanResult) (disk : Disk) : Prop where
  settings_eq : world.settings { state with settings := none } = .ok settings
  scanned : (world.tools.scanDirectory ⟨settings, none, none⟩ state.disk directory
    world.repository state.known).value.1 = .ok result
  written : state.disk.write file (Utf8.encode result.graph.document) = .ok disk

variable {directory file : String} {json : Bool} {languages : Option String} {result : ScanResult}
  {disk : Disk} {arguments : List String}

theorem value_runScan (hlanguages : Request.filters languages = none) :
    (world.runScan settings state directory (some file) json languages).value =
      match (world.tools.scanDirectory ⟨settings, none, none⟩ state.disk directory
        world.repository state.known).value with
      | (.error fault, known) => (.faulted (.scan fault), { state with known })
      | (.ok result, known) => showScan { state with known } result (some file) json := by
  rw [runScan, scanDirectory, hlanguages]
  simp only [Logged.value_bind, Logged.value_pure]
  generalize (world.tools.scanDirectory ⟨settings, none, none⟩ state.disk directory
    world.repository state.known).value = scanned
  obtain ⟨result, known⟩ := scanned
  cases result <;> rfl

/-- What a scan leaves behind that is saved. -/
theorem Saves.value_run (hsaves : world.Saves state directory file settings result disk)
    (hasked : (Request.scan directory (some file) json languages).IsAskedBy arguments)
    (hlanguages : Request.filters languages = none) :
    (world.run state arguments).value.1.exitCode = 0 ∧
      (world.run state arguments).value.2.disk = disk ∧
      (world.run state arguments).value.2.settings = some settings := by
  obtain ⟨logging, hrun⟩ := value_run_of_ok hasked hsaves.settings_eq
  have hscanned := hsaves.scanned
  rw [hrun]
  simp only [runRequest, value_runScan hlanguages]
  generalize (world.tools.scanDirectory ⟨settings, none, none⟩ state.disk directory
    world.repository state.known).value = scanned at hscanned ⊢
  obtain ⟨found, known⟩ := scanned
  obtain rfl : found = .ok result := hscanned
  simp only [showScan, hsaves.written, and_self]

/-- A scan that ends with code zero is saved. -/
theorem exists_saves
    (hasked : (Request.scan directory (some file) json languages).IsAskedBy arguments)
    (hlanguages : Request.filters languages = none)
    (hcode : (world.run state arguments).value.1.exitCode = 0) :
    ∃ settings result disk, world.Saves state directory file settings result disk := by
  cases hsettings : world.settings { state with settings := none } with
  | error fault =>
      rw [value_run_of_error hasked hsettings, CommandResult.exitCode_faulted] at hcode
      cases hcode
  | ok settings =>
      obtain ⟨logging, hrun⟩ := value_run_of_ok hasked hsettings
      simp only [hrun, runRequest, value_runScan hlanguages] at hcode
      generalize hscan : (world.tools.scanDirectory ⟨settings, none, none⟩ state.disk directory
        world.repository state.known).value = scanned at hcode
      obtain ⟨found, known⟩ := scanned
      cases found with
      | error fault =>
          simp only [CommandResult.exitCode_faulted] at hcode
          cases hcode
      | ok result =>
          simp only [showScan] at hcode
          cases hwrite : state.disk.write file (Utf8.encode result.graph.document) with
          | error fault =>
              rw [hwrite] at hcode
              cases hcode
          | ok disk =>
              exact ⟨settings, result, disk, hsettings, congrArg Prod.fst hscan, hwrite⟩

/-! ## What is read afterwards -/

/-- The file of a saved scan stands where there was room for it, and has the graph in it. -/
theorem Saves.exists_place (hsaves : world.Saves state directory file settings result disk)
    (hhome : (state.disk.directory? state.disk.home).isSome) :
    ∃ place, disk.locate false file = .ok place ∧ state.disk.tree.HasRoom place ∧
      disk = state.disk.put place (.file (Utf8.encode result.graph.document)) ∧
      disk.read file = .ok (Utf8.encode result.graph.document) := by
  obtain ⟨place, hplace, hroom, rfl⟩ := Disk.hasRoom_of_write hhome hsaves.written
  exact ⟨place, (Disk.alike_locate_put hroom _ false file).of_ok hplace, hroom, rfl,
    Disk.read_put hroom _ hplace⟩

theorem settingsText_put {disk : Disk} {place : Location} (hroom : disk.tree.HasRoom place)
    (octets : List UInt8)
    (hapart : (disk.put place (.file octets)).locate false settingsFile ≠ .ok place) :
    settingsText (disk.put place (.file octets)) = settingsText disk := by
  rw [settingsText, settingsText, Disk.readText, Disk.readText]
  obtain hsame | ⟨hbefore, hafter⟩ := Disk.alike_read_put hroom octets hapart
  · rw [hsame]
  · rw [hbefore, hafter]
    rfl

/-- The settings are the same when they are read again, unless it is their file that was written. -/
theorem Saves.settings_of_apart (hsaves : world.Saves state directory file settings result disk)
    (hhome : (state.disk.directory? state.disk.home).isSome)
    (hapart : disk.locate false settingsFile ≠ disk.locate false file) {after : CommandState}
    (hdisk : after.disk = disk) :
    world.settings { after with settings := none } = .ok settings := by
  obtain ⟨place, hplace, hroom, rfl, -⟩ := hsaves.exists_place hhome
  rw [hplace] at hapart
  rw [← hsaves.settings_eq, CommandWorld.settings, CommandWorld.settings]
  simp only [hdisk, settingsText_put hroom _ hapart]

theorem readText_of_read {graph : Graph} (hread : disk.read file = .ok (Utf8.encode graph.document)) :
    disk.readText file = .ok graph.document := by
  rw [Disk.readText, hread, textOfFile_ok, Utf8.decode?_encode]
  simp only [Graph.document, Json.unified_indented]

theorem readBaseline_of_short {graph : Graph} (hzone : graph.scannedAt.HasMinuteZone)
    (hread : disk.read file = .ok (Utf8.encode graph.document)) (hshort : graph.HasShortLines) :
    readBaseline disk file = .ok graph := by
  rw [readBaseline, readText_of_read hread]
  simp only [Graph.ofText_of_hasShortLines hzone hshort]

/-- The graph of a saved scan is read back. -/
theorem Saves.readBaseline_eq (hsaves : world.Saves state directory file settings result disk)
    (hknown : state.known.Reached world.tools.installed)
    (hhome : (state.disk.directory? state.disk.home).isSome)
    (hzone : world.tools.now.HasMinuteZone) (hrows : world.tools.CountsRows) :
    readBaseline disk file = .ok result.graph := by
  obtain ⟨place, -, -, -, hread⟩ := hsaves.exists_place hhome
  have hstamp : result.graph.scannedAt.HasMinuteZone := by
    rw [ScanTools.scannedAt_scanDirectory hknown hsaves.scanned]
    exact hzone
  obtain ⟨languages, input, hlanguages, -, houtcome⟩ :=
    (ScanTools.scanDirectory_eq_ok_iff hknown).mp hsaves.scanned
  obtain rfl : none = languages := Except.ok.inj hlanguages
  exact readBaseline_of_short hstamp hread (ScanTools.hasShortLines hrows houtcome)

end CommandWorld
end TypeAtlas
