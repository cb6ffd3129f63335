import TypeAtlas.Source.Directory

/-!
# The files of a directory at a revision

A repository knows revisions by the texts that name them; each leads to a commit with the files of
the whole working tree.  Of these a `History` gives the files below one directory, by their paths
from that directory on, so that they line up with the files of `Disk.walk`.

That there is no repository, or no such revision, is no fault: there are no files then.
-/

namespace TypeAtlas

/-- The kinds of things that a commit holds. -/
inductive EntryKind where
  | blob | tree | submodule
  deriving Repr, DecidableEq

/-- Something that a commit holds at a path. -/
structure CommitEntry where
  path : String
  kind : EntryKind := .blob
  octets : List UInt8 := []
  deriving Repr

/-- A commit with all that it holds. -/
structure Commit where
  sha : String
  entries : List CommitEntry
  deriving Repr

/-- Why a name leads to no commit. -/
inductive MissingRevision where
  | badName | badObject | commandFailed | badValue
  deriving Repr, DecidableEq

def MissingRevision.message (ref : String) : MissingRevision → String
  | .badName => "Ref '" ++ ref ++ "' did not resolve to an object"
  | .badObject =>
    "BadObject: b'" ++
      String.ofList ((Utf8.encode ref).flatMap fun octet => Text.hexDigits 2 octet.toNat) ++ "'"
  | .commandFailed => "Cmd('git') failed due to: exit code(128)\n  cmdline: git rev-parse"
  | .badValue => "bad revision"

/-- What a name of a revision leads to. -/
inductive Revision where
  | commit (commit : Commit)
  | missing (reason : MissingRevision)
  | broken
  deriving Repr

/-- A repository: the path of its working tree, if it has one, and what its names lead to. -/
structure Repository where
  worktree : Option String := none
  refs : List (String × Revision) := []

/-- What a name leads to; a name that the repository does not know leads nowhere. -/
def Repository.revision (repository : Repository) (ref : String) : Revision :=
  (repository.refs.lookup ref).getD (.missing .badName)

/-- A directory and its repository, with the path that leads to the directory from the top of the
working tree: empty, or with a slash at its end. -/
structure History where
  repository : Option Repository := none
  base : String := ""

namespace History

/-- The path from the top of a working tree down to a directory. -/
def basePath (segments : List String) : String :=
  if segments.isEmpty then "" else Text.join "/" segments ++ "/"

def bareRepository (location : Location) : ScanFault :=
  .failed ⟨.source "Bare repositories cannot be scanned", .obj [("path", .str location.path)]⟩

/-- The history of a directory of a disk, given the repository around it. -/
def ofDirectory (disk : Disk) (path : String) (repository : Option Repository) :
    Logged (Except ScanFault History) :=
  match disk.resolve path, repository with
  | .error fault, _ => pure (.error (.path fault))
  | .ok location, none => do
    Logged.tell .debug .history "not_a_git_repository" [("path", .str location.path)]
    pure (.ok {})
  | .ok location, some found =>
    match found.worktree with
    | none => pure (.error (bareRepository location))
    | some worktree =>
      match disk.resolve worktree with
      | .error fault => pure (.error (.path fault))
      | .ok top =>
        match Location.below? top location with
        | none => pure (.error (.outsideWorktree location.path top.path))
        | some segments => pure (.ok ⟨repository, basePath segments⟩)

def tellMissing (level : Level) (ref : String) (reason : MissingRevision) : Logged Unit :=
  Logged.tell level .history "revision_not_found"
    [("ref", .str ref), ("error", .str (reason.message ref))]

/-- The commit that a name leads to, if there is one. -/
def commit? (history : History) (level : Level) (ref : String) :
    Logged (Except ScanFault (Option Commit)) :=
  match history.repository with
  | none => pure (.ok none)
  | some repository =>
    match repository.revision ref with
    | .commit commit => pure (.ok (some commit))
    | .broken => pure (.error .brokenStore)
    | .missing reason => do
      tellMissing level ref reason
      pure (.ok none)

/-- The identifier of the commit that a name leads to, if there is one. -/
def resolve (history : History) (ref : String) : Logged (Except ScanFault (Option String)) := do
  let found ← history.commit? .debug ref
  pure (found.map fun commit => commit.map Commit.sha)

def headSha (history : History) : Logged (Except ScanFault (Option String)) :=
  history.resolve "HEAD"

/-- The path of an entry from the directory on, if the entry is a file that a scan takes. -/
def wantedPath? (history : History) (extensions ignored : List String) (entry : CommitEntry) :
    Option String :=
  if entry.kind = .blob && Text.startsWith entry.path history.base then
    let path := String.ofList (entry.path.toList.drop history.base.length)
    if hasExtension path extensions && !isIgnored path ignored then some path else none
  else none

/-- The file that is made of an entry, if a scan takes it and it is a text. -/
def readEntry (history : History) (ref : String) (extensions ignored : List String)
    (entry : CommitEntry) : Logged (Except ScanFault (Option SourceFile)) :=
  match history.wantedPath? extensions ignored entry with
  | none => pure (.ok none)
  | some path =>
    match Utf8.decode? entry.octets with
    | some content => pure (((SourceFile.make path content).map some).mapError .invalidFile)
    | none => do
      Logged.tell .warning .history "file_read_failed"
        [("file", .str path), ("ref", .str ref), ("error", .str "not utf-8 text")]
      pure (.ok none)

/-- The files that are made of entries; an entry that is no file is the last one read. -/
def readEntries (history : History) (ref : String) (extensions ignored : List String) :
    List CommitEntry → Logged (Except ScanFault (List SourceFile))
  | [] => pure (.ok [])
  | entry :: rest => do
    match ← history.readEntry ref extensions ignored entry with
    | .error fault => pure (.error fault)
    | .ok file =>
      let files ← history.readEntries ref extensions ignored rest
      pure (files.map fun files => file.toList ++ files)

def filesAt (history : History) (ref : String) (extensions ignored : List String) :
    Logged (Except ScanFault (List SourceFile)) := do
  match ← history.commit? .info ref with
  | .error fault => pure (.error fault)
  | .ok none => pure (.ok [])
  | .ok (some commit) =>
    match ← history.readEntries ref extensions ignored commit.entries with
    | .error fault => pure (.error fault)
    | .ok found =>
      let files := SourceFile.sort found
      Logged.tell .debug .history "revision_files_loaded"
        [("ref", .str ref), ("commit", .str commit.sha), ("files", .ofNat files.length)]
      pure (.ok files)

end History
end TypeAtlas
