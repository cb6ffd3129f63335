import TypeAtlas.Command.Run
import Std.Time.DateTime.Timestamp

/-!
# The program

The command line.  What a command may look at is read first: the settings of the environment, the
tree below the working directory, and the time.  The command is a function of that; what it logged,
printed and wrote goes out afterwards.  No grammar is linked in, so a scan reports the grammars that
it lacks.
-/

namespace TypeAtlas.Program

def readEnvironment : IO (List (String × String)) := do
  let names := Settings.defaults.fields.map fun field => (Settings.variableName field.1).toUpper
  let found ← names.mapM fun name => do
    return (← IO.getEnv name).map fun value => (name, value)
  return found.filterMap id

/-- The tree at a path; what cannot be read is left out of it. -/
partial def readTree (path : String) : IO FileTree := do
  let place := System.mkFilePath [path]
  match (← place.symlinkMetadata).type with
  | .symlink => return .link (← IO.FS.realPath place).toString
  | .file => return .file (← IO.FS.readBinFile place).toList
  | .other => throw (IO.userError "neither a file nor a directory")
  | .dir =>
    let entries ← (← place.readDir).toList.filterMapM fun entry => do
      try
        return some (entry.fileName, ← readTree (path ++ "/" ++ entry.fileName))
      catch _ => return none
    return .directory entries

/-- The disk, as far as it is the tree below the working directory. -/
def readDisk : IO Disk := do
  let path := (← IO.currentDir).toString
  let home := Path.segments path
  return { home, tree := FileTree.put (← readTree path) home (.directory []) }

def readClock : IO Timestamp := do
  let count := (← Std.Time.Timestamp.now).toNanosecondsSinceUnixEpoch.val
  match Timestamp.ofSeconds (count.fdiv 1000000000) (count.fmod 1000000000 / 1000).toNat with
  | .ok time => return time
  | .error _ => throw (IO.userError "the clock is out of range")

/-- The files of a disk that an earlier one does not have with the same octets. -/
def newFiles (earlier later : Disk) : List (Location × List UInt8) :=
  (later.tree.leaves fun _ => false).filterMap fun (location, leaf) =>
    match leaf, earlier.at? location with
    | .file octets, .ok (.file known) => if octets = known then none else some (location, octets)
    | .file octets, _ => some (location, octets)
    | _, _ => none

/-- Why events cannot be logged from the level on that a command gave, if they cannot. -/
def levelFault? (result : CommandResult) : Option Threshold.Fault :=
  result.logging.findSome? fun (level, _) =>
    match Threshold.ofName level with
    | .error fault => some fault
    | .ok _ => none

def logLines (result : CommandResult) (events : List Event) (stamp : String) : List String :=
  result.logging.flatMap fun (level, format) =>
    match Threshold.ofName level with
    | .error _ => []
    | .ok threshold =>
      (events.filter threshold.admits).filterMap fun event => (event.line stamp format).toOption

/-- Runs the program in the world as it is. -/
def runHere (arguments : List String) : IO UInt32 := do
  let now ← readClock
  let disk ← readDisk
  let tools : ScanTools :=
    { installed := { core := .missing }
      parse := fun _ _ => .error "no grammar is linked in"
      now }
  let world : CommandWorld := { tools, environment := ← readEnvironment }
  let logged := world.run { disk } arguments
  let (result, state) := logged.value
  if let some fault := levelFault? result then
    IO.eprintln fault.message
    return 1
  for (location, octets) in newFiles disk state.disk do
    IO.FS.writeBinFile location.path ⟨octets.toArray⟩
  for line in logLines result logged.events now.render do
    IO.eprintln line
  IO.eprint result.err
  IO.print result.out
  match result.fault with
  | some fault => IO.eprintln fault.message
  | none => pure ()
  return UInt32.ofNat result.exitCode

end TypeAtlas.Program

def main (arguments : List String) : IO UInt32 :=
  TypeAtlas.Program.runHere arguments
