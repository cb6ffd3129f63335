import TypeAtlas.Command.Console
import TypeAtlas.Command.Request
import TypeAtlas.Graph.Comparison
import TypeAtlas.Report.Changes
import TypeAtlas.Report.Summary
import TypeAtlas.Scan.Run

/-!
# Running a command

A command prints its result on one channel and its warnings on another, and ends with a code: zero,
one if it could not be done, two if the arguments are not right.  A failure is printed; any other
fault is left to whoever runs the command.

What a command may look at is a `CommandWorld`: the disk, the repository, the environment and the
tools of a scan.  What stays from one command to the next is a `CommandState`: the settings, which
are read once, the grammars, and the disk.
-/

namespace TypeAtlas

def programVersion : String := "0.3.0"

/-- What a command may look at. -/
structure CommandWorld where
  tools : ScanTools
  environment : List (String × String) := []
  repository : Option Repository := none

/-- What stays from one command to the next. -/
structure CommandState where
  disk : Disk
  settings : Option Settings := none
  known : KnownGrammars := {}

/-- Why a command ends without being done, other than by a failure that it prints. -/
inductive CommandFault where
  /-- There are no settings. -/
  | settings (fault : SettingsFault)
  /-- A scan has no result. -/
  | scan (fault : ScanFault)
  /-- A saved graph is no text. -/
  | undecodable (message : String)
  deriving Repr

def CommandFault.message : CommandFault → String
  | .settings fault => fault.message
  | .scan fault => fault.message
  | .undecodable message => message

/-- What a command leaves behind. -/
structure CommandResult where
  exitCode : Nat := 0
  out : String := ""
  err : String := ""
  fault : Option CommandFault := none
  logging : List (String × LogFormat) := []

namespace CommandResult

def misused : CommandResult := { exitCode := 2 }

/-- The result of a failure, after what was printed before it. -/
def failed (err message : String) : CommandResult :=
  { exitCode := 1, err := err ++ Console.shown ("Error: " ++ message ++ "\n") }

def faulted : CommandFault → CommandResult
  | .scan (.failed failure) => failed "" (Console.inner failure.text)
  | fault => { exitCode := 1, fault := some fault }

/-- The result of a command that prints a document, after its warnings. -/
def document (err text : String) : CommandResult := { out := text ++ "\n", err }

/-- The result of a command that shows a text on a console, after its warnings. -/
def shown (err text : String) : CommandResult := { out := Console.shown (text ++ "\n"), err }

end CommandResult

def Diagnostic.warning (diagnostic : Diagnostic) : String :=
  Console.shown ("Warning: " ++ Console.outer diagnostic.describe ++ "\n")

def warnings (diagnostics : List Diagnostic) : String :=
  String.join (diagnostics.map Diagnostic.warning)

namespace CommandWorld

def settingsFile : String := ".env"

/-- The text of the file of settings, if there is one. -/
def settingsText (disk : Disk) : Except SettingsFault (Option String) :=
  match disk.readText settingsFile with
  | .ok text => .ok (some text)
  | .error (.unreadable _) => .ok none
  | .error (.undecodable message) => .error (.undecodable message)

/-- The settings: those that were read before, or those of the environment and the file. -/
def settings (world : CommandWorld) (state : CommandState) : Except SettingsFault Settings :=
  match state.settings with
  | some settings => .ok settings
  | none =>
    match settingsText state.disk with
    | .error fault => .error fault
    | .ok text => Settings.load [] world.environment text

/-! ## Scanning -/

def scanDirectory (world : CommandWorld) (settings : Settings) (filters : Option (List String))
    (state : CommandState) (directory : String) :
    Logged (Except CommandFault ScanResult × CommandState) := do
  let (result, known) ←
    world.tools.scanDirectory ⟨settings, filters, none⟩ state.disk directory world.repository
      state.known
  pure (result.mapError .scan, { state with known })

def scanRevision (world : CommandWorld) (settings : Settings) (state : CommandState)
    (directory ref : String) : Logged (Except CommandFault ScanResult × CommandState) := do
  let (result, known) ←
    world.tools.scanRevision ⟨settings, none, none⟩ state.disk directory ref world.repository
      state.known
  pure (result.mapError .scan, { state with known })

/-- Prints a scan, or saves its graph. -/
def showScan (state : CommandState) (result : ScanResult) (output : Option String) (json : Bool) :
    CommandResult × CommandState :=
  let err := warnings result.diagnostics
  let graph := result.graph
  match output with
  | none => (if json then .document err graph.document else .shown err graph.summary, state)
  | some path =>
    match state.disk.write path (Utf8.encode graph.document) with
    | .error fault =>
      (.failed err ("Cannot write graph to " ++ Console.outer path ++ ": " ++
        Console.inner (fault.message (Text.quote path))), state)
    | .ok disk =>
      ({ err := err ++ Console.shown ("Wrote graph: " ++ toString graph.nodes.length ++
          " nodes, " ++ toString graph.edges.length ++ " edges → " ++ path ++ "\n") },
        { state with disk })

def runScan (world : CommandWorld) (settings : Settings) (state : CommandState)
    (directory : String) (output : Option String) (json : Bool) (languages : Option String) :
    Logged (CommandResult × CommandState) := do
  let (result, state) ←
    world.scanDirectory settings (Request.filters languages) state directory
  match result with
  | .error fault => pure (.faulted fault, state)
  | .ok result => pure (showScan state result output json)

/-! ## Comparing -/

/-- Two graphs that are compared, and the diagnostics of both. -/
structure Comparison where
  before : Graph
  after : Graph
  diagnostics : List Diagnostic

def Comparison.diff (comparison : Comparison) : GraphDiff :=
  Graph.diff comparison.before comparison.after

def unreadableBaseline (path : String) (fault : FileFault) : Failure :=
  ⟨.other ("Cannot read baseline " ++ path),
    .obj [("error", .str (fault.message (Text.quote path)))]⟩

def readBaseline (disk : Disk) (path : String) : Except CommandFault Graph :=
  match disk.readText path with
  | .error (.unreadable fault) => .error (.scan (.failed (unreadableBaseline path fault)))
  | .error (.undecodable message) => .error (.undecodable message)
  | .ok text =>
    match Graph.ofText text with
    | .error failure => .error (.scan (.failed failure))
    | .ok graph => .ok graph

def compareWithBaseline (world : CommandWorld) (settings : Settings) (state : CommandState)
    (directory baseline : String) :
    Logged (Except CommandFault Comparison × CommandState) :=
  match readBaseline state.disk baseline with
  | .error fault => pure (.error fault, state)
  | .ok before => do
    let (current, state) ← world.scanDirectory settings none state directory
    pure (current.map fun current => ⟨before, current.graph, current.diagnostics⟩, state)

def compareWithRevision (world : CommandWorld) (settings : Settings) (state : CommandState)
    (directory ref : String) : Logged (Except CommandFault Comparison × CommandState) := do
  let (previous, state) ← world.scanRevision settings state directory ref
  match previous with
  | .error fault => pure (.error fault, state)
  | .ok previous => do
    let (current, state) ← world.scanDirectory settings none state directory
    pure (current.map fun current =>
      ⟨previous.graph, current.graph, previous.diagnostics ++ current.diagnostics⟩, state)

/-- Prints a comparison; `unchanged` is the result if nothing changed and no document is asked for.
-/
def showComparison (comparison : Comparison) (json : Bool) : CommandResult :=
  let err := warnings comparison.diagnostics
  let diff := comparison.diff
  if json then .document err diff.document
  else if diff.isEmpty then .shown err "No architectural changes detected."
  else .shown err (diff.report comparison.before comparison.after)

def runDiff (world : CommandWorld) (settings : Settings) (state : CommandState)
    (directory : String) (ref : Option String) (json : Bool) (baseline : Option String) :
    Logged (CommandResult × CommandState) := do
  let (comparison, state) ← match baseline with
    | some path => world.compareWithBaseline settings state directory path
    | none =>
      world.compareWithRevision settings state directory
        (Request.refOr ref settings.defaultDiffRef)
  match comparison with
  | .error fault => pure (.faulted fault, state)
  | .ok comparison => pure (showComparison comparison json, state)

/-- The command `hook`: as `diff`, but it prints nothing if nothing changed. -/
def runHook (world : CommandWorld) (settings : Settings) (state : CommandState)
    (directory : String) (ref : Option String) (json : Bool) :
    Logged (CommandResult × CommandState) := do
  let (comparison, state) ←
    world.compareWithRevision settings state directory (Request.refOr ref settings.hookRef)
  match comparison with
  | .error fault => pure (.faulted fault, state)
  | .ok comparison =>
    if comparison.diff.isEmpty then pure ({ err := warnings comparison.diagnostics }, state)
    else pure (showComparison comparison json, state)

/-! ## The program -/

def runRequest (world : CommandWorld) (settings : Settings) (state : CommandState) :
    Request → Logged (CommandResult × CommandState)
  | .scan directory output json languages =>
    world.runScan settings state directory output json languages
  | .diff directory ref json baseline => world.runDiff settings state directory ref json baseline
  | .hook directory ref json => world.runHook settings state directory ref json

/-- Runs a command with its arguments. -/
def runCommand (world : CommandWorld) (settings : Settings) (state : CommandState)
    (name : CommandName) (arguments : List String) : Logged (CommandResult × CommandState) :=
  match CommandCall.ofArguments name arguments with
  | .misused => pure (.misused, state)
  | .help => pure ({}, state)
  | .request request => world.runRequest settings state request

/-- The level from which on events are logged. -/
def logLevel (settings : Settings) (verbose : Bool) : String :=
  if verbose then settings.logLevel else "WARNING"

/-- Runs the program.  The settings are read anew, and stay. -/
def run (world : CommandWorld) (state : CommandState) (arguments : List String) :
    Logged (CommandResult × CommandState) :=
  let state := { state with settings := none }
  match ProgramCall.ofArguments arguments with
  | .misused => pure (.misused, state)
  | .help => pure ({}, state)
  | .version => pure ({ out := "depgraph " ++ programVersion ++ "\n" }, state)
  | .command verbose name rest =>
    match world.settings state with
    | .error fault => pure (.faulted (.settings fault), state)
    | .ok settings => do
      let logging := [(logLevel settings verbose, settings.logFormat)]
      let (result, state) ←
        world.runCommand settings { state with settings := some settings } name rest
      pure ({ result with logging }, state)

end CommandWorld
end TypeAtlas
