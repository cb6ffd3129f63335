import TypeAtlas.Proofs.Command.Grammars
import TypeAtlas.Proofs.Command.Saving
import TypeAtlas.Proofs.Report.Lines
import TypeAtlas.Proofs.Scan.Rows

/-!
# A saved scan as a baseline

A directory that is scanned, and then compared with its own saved graph, has not changed: the second
scan finds what the first one found, whatever grammars were loaded in between, and the file with the
graph is read as it was written (`CommandWorld.run_diff_after_scan`).

The file may be one that a scan takes, or hold the settings, and then writing it changes what is
scanned or how: a scan may be saved over the settings that kept it out of a directory
(`exampleDiff_settingsFile`).
-/

namespace TypeAtlas

/-- A text is shown from its first character on, if that is no control. -/
theorem Console.begins_shown {first : Char} {text : String} (htext : Report.Begins first text)
    (hfirst : first ∉ hiddenControls) (htab : first ≠ '\t') :
    Report.Begins first (shown text) := by
  obtain ⟨rest, hrest⟩ := List.head?_eq_some_iff.mp htext
  have hkept : (!hiddenControls.contains first) = true := by simpa using hfirst
  rw [Report.Begins, shown, String.toList_ofList, hrest, List.filter_cons, if_pos hkept,
    Text.expandTabsFrom, if_neg htab]
  split <;> rfl

namespace CommandWorld

variable {world later : CommandWorld} {state state' after : CommandState} {settings : Settings}
  {directory file : String} {ref : Option String} {document : Bool} {result : ScanResult}
  {disk : Disk} {arguments : List String}

/-- Nothing but the disk has changed since some command, apart from the time and from what other
commands have left behind of grammars. -/
structure Unchanged (world later : CommandWorld) (disk : Disk) (state : CommandState) : Prop where
  installed : later.tools.installed = world.tools.installed
  parse : later.tools.parse = world.tools.parse
  repository : later.repository = world.repository
  environment : later.environment = world.environment
  disk : state.disk = disk
  known : state.known.Reached world.tools.installed

theorem Unchanged.settings_eq (hunchanged : world.Unchanged later disk state)
    (hdisk : after.disk = disk) :
    later.settings { state with settings := none } =
      world.settings { after with settings := none } := by
  rw [CommandWorld.settings, CommandWorld.settings, hunchanged.environment]
  simp only [hunchanged.disk, hdisk]

/-! ## Comparing -/

theorem value_runDiff_of_error {fault : CommandFault}
    (hbaseline : readBaseline state.disk file = .error fault) :
    (world.runDiff settings state directory ref document (some file)).value =
      (.faulted fault, state) := by
  rw [runDiff]
  simp only [compareWithBaseline, hbaseline]
  rfl

theorem value_runDiff_of_ok {graph : Graph}
    (hbaseline : readBaseline state.disk file = .ok graph)
    (hscanned : (world.tools.scanDirectory ⟨settings, none, none⟩ state.disk directory
      world.repository state.known).value.1 = .ok result) :
    (world.runDiff settings state directory ref document (some file)).value.1 =
      showComparison ⟨graph, result.graph, result.diagnostics⟩ document := by
  rw [runDiff]
  simp only [compareWithBaseline, hbaseline, scanDirectory, Logged.value_bind, Logged.value_pure,
    hscanned]
  rfl

/-- The comparison of a directory with a graph that can be read. -/
theorem value_run_diff_of_ok {graph : Graph}
    (hsettings : world.settings { state with settings := none } = .ok settings)
    (hasked : (Request.diff directory ref document (some file)).IsAskedBy arguments)
    (hbaseline : readBaseline state.disk file = .ok graph)
    (hscanned : (world.tools.scanDirectory ⟨settings, none, none⟩ state.disk directory
      world.repository state.known).value.1 = .ok result) :
    ∃ logging, (world.run state arguments).value.1 =
      { showComparison ⟨graph, result.graph, result.diagnostics⟩ document with logging } := by
  obtain ⟨logging, hrun⟩ := value_run_of_ok hasked hsettings
  have hcompared : (world.runDiff settings { state with settings := some settings } directory ref
      document (some file)).value.1 =
        showComparison ⟨graph, result.graph, result.diagnostics⟩ document :=
    value_runDiff_of_ok hbaseline hscanned
  refine ⟨logging, ?_⟩
  rw [hrun]
  simp only [runRequest, hcompared]

/-- Graphs without a difference are shown as such. -/
theorem showComparison_of_matches {graph other : Graph} (hmatches : graph.Matches other)
    (diagnostics : List Diagnostic) (document : Bool) :
    showComparison ⟨graph, other, diagnostics⟩ document =
      { out := if document then ({} : GraphDiff).document ++ "\n"
          else "No architectural changes detected.\n"
        err := warnings diagnostics } := by
  rw [showComparison, Comparison.diff, hmatches.diff_eq]
  cases document <;> rfl

/-- Of a difference something else is shown than that nothing changed. -/
theorem showComparison_of_not_isEmpty {comparison : Comparison}
    (hempty : comparison.diff.isEmpty = false) :
    (showComparison comparison false).out ≠ "No architectural changes detected.\n" := by
  have hout : (showComparison comparison false).out =
      Console.shown (comparison.diff.report comparison.before comparison.after ++ "\n") := by
    simp only [showComparison, hempty, Bool.false_eq_true, if_false]
    rfl
  have hbegins : Report.Begins '#' (showComparison comparison false).out :=
    hout ▸ Console.begins_shown (GraphDiff.begins_report.append "\n") (by decide) (by decide)
  intro hsame
  rw [hsame] at hbegins
  exact absurd hbegins (by decide)

theorem Saves.run_diff (hsaves : world.Saves state directory file settings result disk)
    (hknown : state.known.Reached world.tools.installed)
    (hhome : (state.disk.directory? state.disk.home).isSome)
    (hzone : world.tools.now.HasMinuteZone) (hrows : world.tools.CountsRows)
    (hunscanned : ∀ place, disk.locate false file = .ok place →
      ¬ disk.Scans directory (Language.allExtensions none) settings.ignoredDirs place)
    (hunchanged : world.Unchanged later disk state')
    (hsettings : later.settings { state' with settings := none } = .ok settings)
    (hasked : (Request.diff directory ref document (some file)).IsAskedBy arguments) :
    (later.run state' arguments).value.1.exitCode = 0 ∧
      (later.run state' arguments).value.1.fault = none ∧
      (later.run state' arguments).value.1.out =
        if document then ({} : GraphDiff).document ++ "\n"
        else "No architectural changes detected.\n" := by
  obtain ⟨place, hplace, hroom, hput, -⟩ := hsaves.exists_place hhome
  have hbaseline : readBaseline state'.disk file = .ok result.graph := by
    rw [hunchanged.disk]
    exact hsaves.readBaseline_eq hknown hhome hzone hrows
  -- The second scan finds what the first one found, as the file is none that it takes.
  have hapart : ∀ languages, ScanOptions.languages ⟨settings, none, none⟩ = .ok languages →
      ¬ (state.disk.put place (.file (Utf8.encode result.graph.document))).Scans directory
        (Language.allExtensions languages) settings.ignoredDirs place := by
    intro languages hresolved
    obtain rfl : none = languages := Except.ok.inj hresolved
    exact hput ▸ hunscanned place hplace
  obtain ⟨result', hscanned, hmatches⟩ :=
    ScanTools.scanDirectory_put hroom _ hknown hunchanged.known hunchanged.installed
      hunchanged.parse hapart hsaves.scanned
  rw [← hput, ← hunchanged.disk, ← hunchanged.repository] at hscanned
  obtain ⟨logging, hrun⟩ := value_run_diff_of_ok hsettings hasked hbaseline hscanned
  rw [hrun, showComparison_of_matches hmatches]
  exact ⟨rfl, rfl, rfl⟩

/-- **A saved scan is a baseline.**  A scan of a directory ends with code zero, so its graph is
saved.  The file is not one that a scan takes, and the settings read afterwards are those that were
read before.  Then to compare the directory with the file later on, with nothing else changed, ends
with code zero and shows no change. -/
theorem run_diff_after_scan {json : Bool} {languages : Option String} {scanned : CommandResult}
    {scanArguments diffArguments : List String}
    (hscan : (Request.scan directory (some file) json languages).IsAskedBy scanArguments)
    (hlanguages : Request.filters languages = none)
    (hknown : state.known.Reached world.tools.installed)
    (hhome : (state.disk.directory? state.disk.home).isSome)
    (hzone : world.tools.now.HasMinuteZone) (hrows : world.tools.CountsRows)
    (hrun : (world.run state scanArguments).value = (scanned, after))
    (hcode : scanned.exitCode = 0)
    (hunscanned : ∀ settings ∈ after.settings, ∀ place, after.disk.locate false file = .ok place →
      ¬ after.disk.Scans directory (Language.allExtensions none) settings.ignoredDirs place)
    (hsettings : ∀ settings ∈ after.settings,
      world.settings { after with settings := none } = .ok settings)
    (hunchanged : world.Unchanged later after.disk state')
    (hdiff : (Request.diff directory ref document (some file)).IsAskedBy diffArguments) :
    (∃ graph : Graph, after.disk.read file = .ok (Utf8.encode graph.document)) ∧
      (later.run state' diffArguments).value.1.exitCode = 0 ∧
      (later.run state' diffArguments).value.1.fault = none ∧
      (later.run state' diffArguments).value.1.out =
        if document then ({} : GraphDiff).document ++ "\n"
        else "No architectural changes detected.\n" := by
  obtain ⟨settings, result, disk, hsaves⟩ :=
    exists_saves hscan hlanguages ((congrArg (·.1.exitCode) hrun).trans hcode)
  obtain ⟨-, hdisk, hread⟩ := hsaves.value_run hscan hlanguages
  rw [hrun] at hdisk hread
  obtain rfl : after.disk = disk := hdisk
  obtain ⟨place, -, -, -, hfile⟩ := hsaves.exists_place hhome
  have hagain : later.settings { state' with settings := none } = .ok settings :=
    (hunchanged.settings_eq rfl).trans (hsettings settings hread)
  exact ⟨⟨result.graph, hfile⟩, hsaves.run_diff hknown hhome hzone hrows (hunscanned settings hread)
    hunchanged hagain hdiff⟩

/-! ## A directory with one class -/

/-- A class as it is parsed. -/
def exampleTree : Syntax.Tree :=
  .node { type := "program" }
    [.node { type := "class_declaration" }
      [.node { type := "class", named := false, raw := .plain "class" } [],
        .node { type := "identifier", fields := ["name"], raw := .plain "A" } [],
        .node { type := "class_body", fields := ["body"], raw := .plain "{}" } []]]

/-- A world in which one text can be parsed. -/
def exampleWorld : CommandWorld where
  tools :=
    { installed := { pack := .installed ⟨["java"]⟩ }
      parse := fun _ text => if text = "class A {}\n" then .ok exampleTree else .error text
      now := ⟨2026, 1, 1, 0, 0, 0, 0, some 0, Timestamp.inRange_newYear⟩ }

theorem hasMinuteZone_exampleWorld : exampleWorld.tools.now.HasMinuteZone := by
  intro seconds hseconds
  obtain rfl : 0 = seconds := Option.some.inj hseconds
  decide

/-- The example is all on one line. -/
theorem countsRows_exampleWorld : exampleWorld.tools.CountsRows := by
  have hrow : ∀ tree, exampleTree.Contains tree → tree.label.row = 0 := by
    simp [exampleTree, Syntax.Tree.contains_node_iff]
  intro grammar text root hparse tree htree
  simp only [exampleWorld] at hparse
  split at hparse
  next =>
    obtain rfl := Except.ok.inj hparse
    rw [hrow tree htree]
    decide
  next => cases hparse

/-- A disk with a working directory that has these entries. -/
def workDisk (entries : List (String × FileTree)) : Disk where
  home := ["work"]
  tree := .directory [("work", .directory entries)]

/-- The example before anything is run. -/
def workState (entries : List (String × FileTree)) : CommandState where
  disk := workDisk entries

/-- The names that the example uses of files that are written. -/
def exampleNames : List String := [settingsFile, "graph.json"]

section Work

variable {entries : List (String × FileTree)} {name text : String}

section

variable (hplain : (FileTree.directory entries).IsPlain)

include hplain

theorem isPlain_workDisk : (workDisk entries).tree.IsPlain := by
  have hwork : Path.IsName "work" := by decide
  exact .directory (List.nodup_singleton _) (List.forall_mem_singleton.mpr hwork)
    (List.forall_mem_singleton.mpr hplain)

theorem resolve_workDisk : (workDisk entries).resolve "." = .ok ["work"] :=
  Disk.resolve_of_isPlain (isPlain_workDisk hplain) (by decide)

theorem locate_workDisk (hname : name ∈ exampleNames) (writing : Bool) :
    (workDisk entries).locate writing name = .ok ["work", name] := by
  have hat : (workDisk entries).at? ["work"] = .ok (.directory entries) := rfl
  have hlink : (workDisk entries).link? (["work"] ++ [name]) = none :=
    Disk.link?_of_isPlain (isPlain_workDisk hplain) _
  obtain ⟨hsegments, habsolute, hpath, hother, hback, hlength⟩ :=
    (by decide : ∀ name ∈ exampleNames, Path.segments name = [name] ∧
      Path.isAbsolute name = false ∧ ¬ Disk.pathLimit ≤ (Utf8.encode name).length ∧
      ¬ (name = "" ∨ name = ".") ∧ ¬ name = ".." ∧
      ¬ Disk.nameLimit < (Utf8.encode name).length) name hname
  have hstart : Disk.startFrom (workDisk entries).home name = ["work"] := by
    rw [Disk.startFrom, habsolute]
    rfl
  rw [Disk.locate, if_neg hpath, hsegments, hstart,
    Disk.locateFrom_name hat hother hback (by simp) hlength, hlink, Disk.locateFrom]
  rfl

/-- The file of settings is read if it is there. -/
theorem settings_of_file (hreturn : '\r' ∉ text.toList) (hdisk : state.disk = workDisk entries)
    (hat : (workDisk entries).readAt ["work", settingsFile] = .ok (Utf8.encode text)) :
    exampleWorld.settings { state with settings := none } = Settings.load [] [] (some text) := by
  have htext : settingsText (workDisk entries) = .ok (some text) := by
    rw [settingsText, Disk.readText, Disk.read, locate_workDisk hplain (by decide), Except.bind,
      hat, textOfFile_ok, Utf8.decode?_encode]
    simp only [Text.unified_eq_self_iff.mpr hreturn]
  rw [CommandWorld.settings]
  simp only [hdisk, htext]
  rfl

/-- Without it the settings are the defaults. -/
theorem settings_of_noEntry
    (hat : (workDisk entries).readAt ["work", settingsFile] = .error .noEntry) :
    exampleWorld.settings (workState entries) = .ok {} := by
  have htext : settingsText (workDisk entries) = .ok none := by
    rw [settingsText, Disk.readText, Disk.read, locate_workDisk hplain (by decide), Except.bind, hat]
    rfl
  rw [CommandWorld.settings]
  simp only [workState, htext]
  rfl

theorem directoryInput_workDisk {ignored : List String} {found : List SourceFile}
    (hsorted : SourceFile.sort found = found)
    (hread : ((workDisk entries).wantedLeaves ["work"] entries (Language.allExtensions none)
      ignored).filterMap
        (fun leaf => ((workDisk entries).readFile? ["work"] ["work"] leaf).value) = found) :
    (ScanTools.directoryInput (workDisk entries) "." none (Language.allExtensions none)
      ignored).value = .ok ⟨found, none⟩ := by
  have hopen : (workDisk entries).open? ["work"] = .ok (["work"], entries) := rfl
  have hwalk : ((workDisk entries).walk "." (Language.allExtensions none) ignored).value =
      .ok found := by
    rw [Disk.walk, resolve_workDisk hplain]
    simp only [hopen, Logged.value_bind, Logged.value_pure]
    rw [Disk.value_walkFrom_eq_sort, hread, hsorted]
  have hhistory : (History.ofDirectory (workDisk entries) "." none).value = .ok {} := by
    simp only [History.ofDirectory, resolve_workDisk hplain]
    rfl
  rw [ScanTools.directoryInput, Logged.value_bind, hwalk]
  simp only [Logged.value_bind, hhistory]
  rfl

/-- A scan of the example is saved if it comes to a result. -/
theorem saves_workState {after : List (String × FileTree)} {found : List SourceFile}
    (hname : name ∈ exampleNames)
    (hsettings : exampleWorld.settings (workState entries) = .ok settings)
    (hfound : (ScanTools.directoryInput (workDisk entries) "." none (Language.allExtensions none)
      settings.ignoredDirs).value = .ok ⟨found, none⟩)
    (houtcome : exampleWorld.tools.outcomeFor ⟨settings, none, none⟩ none ⟨found, none⟩
      exampleWorld.tools.now = .ok result)
    (hdirectory : (workDisk entries).directory? ["work", name] = none)
    (hput : (workDisk entries).put ["work", name] (.file (Utf8.encode result.graph.document)) =
      workDisk after) :
    exampleWorld.Saves (workState entries) "." name settings result (workDisk after) where
  settings_eq := hsettings
  scanned := (ScanTools.scanDirectory_eq_ok_iff .new).mpr ⟨none, _, rfl, hfound, houtcome⟩
  written := by
    rw [Disk.write]
    simp only [workState, locate_workDisk hplain hname, hdirectory, hput]

/-- A file of one of the names is none of those that a scan of the example takes. -/
theorem not_scans_workDisk (hname : name ∈ exampleNames) (ignored : List String) {place : Location}
    (hplace : (workDisk entries).locate false name = .ok place) :
    ¬ (workDisk entries).Scans "." (Language.allExtensions none) ignored place := by
  rw [locate_workDisk hplain hname] at hplace
  obtain rfl : ["work", name] = place := Except.ok.inj hplace
  rintro ⟨location, directory, inner, hresolve, hopen, ⟨names, tree⟩, hleaf, hplace⟩
  rw [resolve_workDisk hplain] at hresolve
  obtain rfl : ["work"] = location := Except.ok.inj hresolve
  obtain ⟨rfl, rfl⟩ := Prod.mk.inj (Except.ok.inj hopen)
  obtain ⟨hleaf, htaken⟩ := List.mem_filter.mp (Disk.wantedLeaves_eq_filter .. ▸ hleaf)
  -- Every leaf is a file and stands where its names say, so this one has an extension that is not taken.
  obtain ⟨⟨octets, rfl⟩, -⟩ := hplain.leaf_spec _ hleaf
  obtain rfl : names = [name] := List.cons.inj (Except.ok.inj hplace) |>.2
  have hnone : ∀ name ∈ exampleNames,
      hasExtension ([name].getLastD "") (Language.allExtensions none) = false := by
    decide
  rw [Disk.takesLeaf, hnone name hname, Bool.false_and, Bool.false_and] at htaken
  cases htaken

end

theorem scan_isAskedBy (hname : name ∈ exampleNames) :
    (Request.scan "." (some name) false none).IsAskedBy ["scan", ".", "-o", name] := by
  refine ⟨false, .scan, [".", "-o", name], ?_⟩
  revert name
  decide

theorem diff_isAskedBy (hname : name ∈ exampleNames) :
    (Request.diff "." none false (some name)).IsAskedBy ["diff", ".", "--baseline", name] := by
  refine ⟨false, .diff, [".", "--baseline", name], ?_⟩
  revert name
  decide

end Work

/-- A saved scan of the example, with what it leaves behind. -/
def exampleScan (entries : List (String × FileTree)) (name : String) :
    CommandResult × CommandState :=
  (exampleWorld.run (workState entries) ["scan", ".", "-o", name]).value

/-- The comparison with the saved scan. -/
def exampleDiff (entries : List (String × FileTree)) (name : String) : CommandResult :=
  (exampleWorld.run (exampleScan entries name).2 ["diff", ".", "--baseline", name]).value.1

theorem unchanged_exampleWorld (entries : List (String × FileTree)) (name : String) :
    exampleWorld.Unchanged exampleWorld (exampleScan entries name).2.disk
      (exampleScan entries name).2 :=
  ⟨rfl, rfl, rfl, rfl, rfl, reached_run .new _⟩

def exampleFile : SourceFile := ⟨"A.java", "class A {}\n", SourceFile.firstPath_ne⟩

def exampleEntries : List (String × FileTree) :=
  [(exampleFile.path, .file (Utf8.encode exampleFile.content))]

theorem isPlain_exampleEntries : (FileTree.directory exampleEntries).IsPlain :=
  .directory (by decide) (by decide) (List.forall_mem_singleton.mpr (.file _))

/-- The directory with one more file. -/
def exampleEntriesWith (octets : List UInt8) : List (String × FileTree) :=
  exampleEntries ++ [("graph.json", .file octets)]

theorem isPlain_exampleEntriesWith (octets : List UInt8) :
    (FileTree.directory (exampleEntriesWith octets)).IsPlain := by
  have hnames : (exampleEntriesWith octets).map Prod.fst = ["A.java", "graph.json"] := rfl
  have hisName : ∀ name ∈ ["A.java", "graph.json"], Path.IsName name := by decide
  refine .directory (by rw [hnames]; decide) (fun entry hentry => ?_) ?_
  · exact hisName _ (hnames ▸ List.mem_map_of_mem hentry)
  · exact List.forall_mem_cons.mpr ⟨.file _, List.forall_mem_singleton.mpr (.file _)⟩

theorem sort_exampleFile : SourceFile.sort [exampleFile] = [exampleFile] :=
  List.mergeSort_singleton _

theorem run_diff_after_scan_exampleWorld :
    exampleWorld.tools.CountsRows ∧ (exampleScan exampleEntries "graph.json").1.exitCode = 0 ∧
      (exampleDiff exampleEntries "graph.json").exitCode = 0 ∧
      (exampleDiff exampleEntries "graph.json").out = "No architectural changes detected.\n" := by
  have hname : "graph.json" ∈ exampleNames := by decide
  have hfound : (exampleWorld.tools.outcomeFor ⟨{}, none, none⟩ none ⟨[exampleFile], none⟩
      exampleWorld.tools.now).toOption.map (fun result => result.graph.nodes.length) = some 1 := by
    decide +kernel
  obtain ⟨result, houtcome, -⟩ := exists_ok_of_map_toOption hfound
  have hsaves : exampleWorld.Saves (workState exampleEntries) "." "graph.json" {} result
      (workDisk (exampleEntriesWith (Utf8.encode result.graph.document))) :=
    saves_workState isPlain_exampleEntries hname (settings_of_noEntry isPlain_exampleEntries rfl)
      (directoryInput_workDisk isPlain_exampleEntries sort_exampleFile rfl) houtcome rfl rfl
  have hplain := isPlain_exampleEntriesWith (Utf8.encode result.graph.document)
  obtain ⟨hcode, hdisk, hsettings⟩ := hsaves.value_run (scan_isAskedBy hname) rfl
  change (exampleScan exampleEntries "graph.json").2.disk = _ at hdisk
  have hforAll : ∀ settings ∈ (exampleScan exampleEntries "graph.json").2.settings,
      settings = {} := by
    intro settings hread
    exact (Option.some.inj (hsettings.symm.trans hread)).symm
  have hapart : (workDisk (exampleEntriesWith (Utf8.encode result.graph.document))).locate false
      settingsFile ≠ (workDisk (exampleEntriesWith (Utf8.encode result.graph.document))).locate false
        "graph.json" := by
    rw [locate_workDisk hplain (by decide), locate_workDisk hplain hname]
    decide
  obtain ⟨-, hzero, -, hout⟩ := run_diff_after_scan (scan_isAskedBy hname) rfl .new rfl
    hasMinuteZone_exampleWorld countsRows_exampleWorld rfl hcode
    (fun settings _ place hplace =>
      hdisk ▸ not_scans_workDisk hplain hname settings.ignoredDirs (hdisk ▸ hplace))
    (fun settings hread => hforAll settings hread ▸ hsaves.settings_of_apart rfl hapart hdisk)
    (unchanged_exampleWorld exampleEntries "graph.json") (diff_isAskedBy hname)
  exact ⟨countsRows_exampleWorld, hcode, hzero, hout⟩

/-! ## Settings that are overwritten -/

/-- A directory with the class in a directory below it, and with a file of settings. -/
def settingsEntries (text : String) : List (String × FileTree) :=
  [(settingsFile, .file (Utf8.encode text)), ("lib", .directory exampleEntries)]

theorem isPlain_settingsEntries (text : String) :
    (FileTree.directory (settingsEntries text)).IsPlain := by
  have hnames : (settingsEntries text).map Prod.fst = [settingsFile, "lib"] := rfl
  have hisName : ∀ name ∈ [settingsFile, "lib"], Path.IsName name := by decide
  refine .directory (by rw [hnames]; decide) (fun entry hentry => ?_) ?_
  · exact hisName _ (hnames ▸ List.mem_map_of_mem hentry)
  · exact List.forall_mem_cons.mpr
      ⟨.file _, List.forall_mem_singleton.mpr isPlain_exampleEntries⟩

theorem libraryPath_ne : "lib/A.java" ≠ "" := by decide

def libraryFile : SourceFile := ⟨"lib/A.java", exampleFile.content, libraryPath_ne⟩

theorem sort_libraryFile : SourceFile.sort [libraryFile] = [libraryFile] :=
  List.mergeSort_singleton _

/-- The directory when the settings keep scans out of the directory with the class. -/
def ignoringEntries : List (String × FileTree) :=
  settingsEntries "DEPGRAPH_IGNORED_DIRS=[\"lib\"]\n"

/-- A first scan finds nothing, and is saved over the settings. -/
theorem saves_ignoringEntries :
    exampleWorld.Saves (workState ignoringEntries) "." settingsFile { ignoredDirs := ["lib"] }
      exampleWorld.tools.emptyResult
      (workDisk (settingsEntries exampleWorld.tools.emptyResult.graph.document)) := by
  have hplain : (FileTree.directory ignoringEntries).IsPlain := isPlain_settingsEntries _
  have hload : Settings.load [] [] (some "DEPGRAPH_IGNORED_DIRS=[\"lib\"]\n") =
      .ok { ignoredDirs := ["lib"] } :=
    eq_ok_of_toOption (by decide +kernel)
  have hsettings : exampleWorld.settings { workState ignoringEntries with settings := none } =
      .ok { ignoredDirs := ["lib"] } :=
    (settings_of_file hplain (by decide +kernel) rfl rfl).trans hload
  exact saves_workState hplain (by decide) hsettings
    (directoryInput_workDisk hplain List.mergeSort_nil rfl) rfl rfl rfl

/-- There are no settings in a graph, so a second scan goes by the defaults, and it finds the
class. -/
theorem exists_outcome_libraryFile :
    ∃ result, exampleWorld.tools.outcomeFor ⟨{}, none, none⟩ none ⟨[libraryFile], none⟩
        exampleWorld.tools.now = .ok result ∧
      (Graph.diff exampleWorld.tools.emptyResult.graph result.graph).isEmpty = false := by
  have hfound : (exampleWorld.tools.outcomeFor ⟨{}, none, none⟩ none ⟨[libraryFile], none⟩
      exampleWorld.tools.now).toOption.map (fun result =>
        (Graph.diff exampleWorld.tools.emptyResult.graph result.graph).isEmpty) =
          some false := by
    decide +kernel
  exact exists_ok_of_map_toOption hfound

/-- A scan may be saved over the file of settings.  That file is not scanned, and nothing else is
changed, but the comparison goes into the directory that the scan ignored, and finds the class
there. -/
theorem exampleDiff_settingsFile :
    exampleWorld.tools.CountsRows ∧
      (exampleScan ignoringEntries settingsFile).1.exitCode = 0 ∧
      (∀ settings ∈ (exampleScan ignoringEntries settingsFile).2.settings, ∀ place,
        (exampleScan ignoringEntries settingsFile).2.disk.locate false settingsFile = .ok place →
          ¬ (exampleScan ignoringEntries settingsFile).2.disk.Scans "."
            (Language.allExtensions none) settings.ignoredDirs place) ∧
      exampleWorld.Unchanged exampleWorld (exampleScan ignoringEntries settingsFile).2.disk
        (exampleScan ignoringEntries settingsFile).2 ∧
      (exampleDiff ignoringEntries settingsFile).out ≠ "No architectural changes detected.\n" := by
  have hname : settingsFile ∈ exampleNames := by decide
  have hplain := isPlain_settingsEntries exampleWorld.tools.emptyResult.graph.document
  obtain ⟨hcode, hdisk, -⟩ := saves_ignoringEntries.value_run (scan_isAskedBy hname) rfl
  change (exampleScan ignoringEntries settingsFile).2.disk = _ at hdisk
  refine ⟨countsRows_exampleWorld, hcode, fun settings _ place hplace =>
    hdisk ▸ not_scans_workDisk hplain hname settings.ignoredDirs (hdisk ▸ hplace),
    unchanged_exampleWorld ignoringEntries settingsFile, ?_⟩
  have hload : Settings.load [] [] (some exampleWorld.tools.emptyResult.graph.document) = .ok {} :=
    eq_ok_of_toOption (by decide +kernel)
  have hsettings : exampleWorld.settings
      { (exampleScan ignoringEntries settingsFile).2 with settings := none } = .ok {} :=
    (settings_of_file hplain (by decide +kernel) hdisk rfl).trans hload
  have hbaseline : readBaseline (exampleScan ignoringEntries settingsFile).2.disk settingsFile =
      .ok exampleWorld.tools.emptyResult.graph :=
    hdisk ▸ saves_ignoringEntries.readBaseline_eq .new rfl hasMinuteZone_exampleWorld
      countsRows_exampleWorld
  obtain ⟨result, houtcome, hdifferent⟩ := exists_outcome_libraryFile
  have hscanned : (exampleWorld.tools.scanDirectory ⟨{}, none, none⟩
      (exampleScan ignoringEntries settingsFile).2.disk "." exampleWorld.repository
      (exampleScan ignoringEntries settingsFile).2.known).value.1 = .ok result := by
    refine (ScanTools.scanDirectory_eq_ok_iff (reached_run .new _)).mpr ⟨none, _, rfl, ?_, houtcome⟩
    rw [hdisk]
    exact directoryInput_workDisk hplain sort_libraryFile rfl
  obtain ⟨logging, hrun⟩ :=
    value_run_diff_of_ok hsettings (diff_isAskedBy hname) hbaseline hscanned
  rw [exampleDiff, hrun]
  exact showComparison_of_not_isEmpty hdifferent

end CommandWorld
end TypeAtlas
