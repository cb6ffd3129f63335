import TypeAtlas.Batch.Run
import TypeAtlas.Settings.Basic
import TypeAtlas.Source.History

/-!
# Scans

A scan reads a batch of files and assembles the graph of what they declare.  The files are given, or
those of a directory as it is now, or those of a directory as it was at a revision.  Grammars that
were loaded for one scan stay loaded for the next one.
-/

namespace TypeAtlas

open Syntax

/-- What a scan works with: what is installed, how texts are parsed, and the time. -/
structure ScanTools where
  installed : Installation
  parse : Grammar → String → Except String Tree
  now : Timestamp

/-- What is asked of a scan.  Without a number of workers the settings say how many there are. -/
structure ScanOptions where
  settings : Settings
  filters : Option (List String) := none
  workers : Option Nat := none

/-- The grammars of earlier scans. -/
structure KnownGrammars where
  cache : Option GrammarCache := none
  loader : Loader := {}

/-- A graph and the problems on the way to it. -/
structure ScanResult where
  graph : Graph
  diagnostics : List Diagnostic := []
  processed : Nat := 0
  skipped : Nat := 0

/-- The files of a scan and the commit that they are from. -/
structure ScanInput where
  files : List SourceFile
  commitSha : Option String := none

namespace ScanOptions

def workerCount (options : ScanOptions) : Nat :=
  match options.workers with
  | none => options.settings.maxWorkers
  | some 0 => options.settings.maxWorkers
  | some workers => workers

def languages (options : ScanOptions) : Except ScanFault (Option (List Language)) :=
  (Language.resolve options.filters).mapError .failed

end ScanOptions

namespace ScanTools

def setup (tools : ScanTools) (options : ScanOptions) (languages : Option (List Language)) :
    BatchSetup :=
  ⟨tools.installed, tools.parse, languages, options.workerCount⟩

def shared (options : ScanOptions) (known : KnownGrammars) : Shared :=
  ⟨GrammarCache.shared known.cache options.settings.forcePortable, known.loader, none⟩

def assemble (batch : BatchResult) (commitSha : Option String) (scannedAt : Timestamp) :
    ScanResult where
  graph := Graph.assemble batch.nodes batch.edges commitSha scannedAt
  diagnostics := batch.diagnostics
  processed := batch.processed
  skipped := batch.skipped

def tellComplete (result : ScanResult) : Logged Unit :=
  Logged.tell .info .scans "scan_complete"
    [("files", .ofNat result.processed), ("skipped", .ofNat result.skipped),
      ("nodes", .ofNat result.graph.nodes.length), ("edges", .ofNat result.graph.edges.length),
      ("diagnostics", .ofNat result.diagnostics.length),
      ("commit", Json.ofOption .str result.graph.commitSha)]

def scanInput (tools : ScanTools) (options : ScanOptions) (languages : Option (List Language))
    (input : ScanInput) (scannedAt : Timestamp) (known : KnownGrammars) :
    Logged (Except ScanFault ScanResult × KnownGrammars) := do
  let (batch, _, shared) ←
    (tools.setup options languages).run input.files {} (shared options known)
  let known : KnownGrammars := ⟨some shared.cache, shared.loader⟩
  match batch with
  | .error fault => pure (.error (.noParser fault), known)
  | .ok batch => do
    let result := assemble batch input.commitSha scannedAt
    tellComplete result
    pure (.ok result, known)

def scanFiles (tools : ScanTools) (options : ScanOptions) (input : ScanInput)
    (scannedAt : Timestamp) (known : KnownGrammars) :
    Logged (Except ScanFault ScanResult × KnownGrammars) :=
  match options.languages with
  | .error fault => pure (.error fault, known)
  | .ok languages => tools.scanInput options languages input scannedAt known

/-! ## Directories -/

/-- The files of a directory as it is now, with the commit that is checked out. -/
def directoryInput (disk : Disk) (path : String) (repository : Option Repository)
    (extensions ignored : List String) : Logged (Except ScanFault ScanInput) := do
  match ← disk.walk path extensions ignored with
  | .error fault => pure (.error fault)
  | .ok files =>
    match ← History.ofDirectory disk path repository with
    | .error fault => pure (.error fault)
    | .ok history =>
      let sha ← history.headSha
      pure (sha.map fun commitSha => ⟨files, commitSha⟩)

def scanDirectory (tools : ScanTools) (options : ScanOptions) (disk : Disk) (path : String)
    (repository : Option Repository) (known : KnownGrammars) :
    Logged (Except ScanFault ScanResult × KnownGrammars) :=
  match options.languages with
  | .error fault => pure (.error fault, known)
  | .ok languages => do
    let extensions := Language.allExtensions languages
    match ← directoryInput disk path repository extensions options.settings.ignoredDirs with
    | .error fault => pure (.error fault, known)
    | .ok input => tools.scanInput options languages input tools.now known

/-! ## Revisions -/

/-- The files of a directory at a revision, if there is such a revision. -/
def revisionInput (disk : Disk) (path ref : String) (repository : Option Repository)
    (extensions ignored : List String) : Logged (Except ScanFault (Option ScanInput)) := do
  match ← History.ofDirectory disk path repository with
  | .error fault => pure (.error fault)
  | .ok history =>
    match ← history.resolve ref with
    | .error fault => pure (.error fault)
    | .ok none => do
      Logged.tell .info .scans "revision_scan_empty" [("path", .str path)]
      pure (.ok none)
    | .ok (some sha) =>
      let files ← history.filesAt ref extensions ignored
      pure (files.map fun files => some ⟨files, some sha⟩)

def emptyResult (tools : ScanTools) : ScanResult where
  graph := Graph.assemble [] [] none tools.now

/-- Scans a directory at a revision; without such a revision the graph is empty. -/
def scanRevision (tools : ScanTools) (options : ScanOptions) (disk : Disk) (path ref : String)
    (repository : Option Repository) (known : KnownGrammars) :
    Logged (Except ScanFault ScanResult × KnownGrammars) :=
  match options.languages with
  | .error fault => pure (.error fault, known)
  | .ok languages =>
    Logged.within [("ref", .str ref)] do
      let extensions := Language.allExtensions languages
      match ← revisionInput disk path ref repository extensions options.settings.ignoredDirs with
      | .error fault => pure (.error fault, known)
      | .ok none => pure (.ok tools.emptyResult, known)
      | .ok (some input) => tools.scanInput options languages input tools.now known

end ScanTools
end TypeAtlas
