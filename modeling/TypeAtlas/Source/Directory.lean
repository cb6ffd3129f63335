import TypeAtlas.Log.Event
import TypeAtlas.Scan.Fault
import TypeAtlas.Source.File
import TypeAtlas.Source.TextFile

/-!
# The files of a directory

A directory is walked down to its files, but not into directories of ignored names.  The files with
one of the wanted extensions are read as texts with unified line ends; those that are no texts, or
cannot be read, are left out.  The result is in the order of the paths, so the order in which a
directory lists its entries does not show.
-/

namespace TypeAtlas

namespace Disk

/-- The octets of a leaf of a directory; those of a link are the octets of the file it leads to. -/
def readLeaf (disk : Disk) (directory : Location) (leaf : List String × FileTree) :
    Except FileFault (List UInt8) :=
  match leaf.2 with
  | .file octets => .ok octets
  | _ =>
    (disk.locateFrom false linkLimit (directory ++ leaf.1.dropLast) [leaf.1.getLastD ""]).bind
      disk.readAt

/-- Whether a leaf of a directory is a file, or a link that leads to no directory. -/
def isFileLeaf (disk : Disk) (directory : Location) (leaf : List String × FileTree) : Bool :=
  match disk.readLeaf directory leaf with
  | .error .isDirectory => false
  | _ => true

/-- The file that is made of a leaf of a directory, if it can be read.  What is told of one that
cannot has the place of the leaf as it was named. -/
def readFile? (disk : Disk) (directory named : Location) (leaf : List String × FileTree) :
    Logged (Option SourceFile) :=
  let path := Text.join "/" leaf.1
  match textOfFile (disk.readLeaf directory leaf) with
  | .error fault => do
    Logged.tell .warning .files "file_read_failed"
      [("file", .str path), ("error", .str (fault.message (Text.quote (named ++ leaf.1).path)))]
    pure none
  | .ok content => pure (SourceFile.make path content).toOption

/-- The leaves below the entries of a directory that a scan takes; links to directories are none. -/
def wantedLeaves (disk : Disk) (directory : Location) (entries : List (String × FileTree))
    (extensions ignored : List String) : List (List String × FileTree) :=
  (FileTree.leavesIn ignored.contains entries).filter fun leaf =>
    hasExtension (leaf.1.getLastD "") extensions && disk.isFileLeaf directory leaf

/-- Why there are no files below a place that is no directory. -/
def noDirectory (path : String) (location : Location) : FileFault → ScanFault
  | .nameTooLong => .path (.tooLong location)
  | _ => .failed ⟨.source ("Not a directory: " ++ path), .obj [("path", .str location.path)]⟩

/-- The files below the directory at a place, which is known by a name of its own. -/
def walkFrom (disk : Disk) (directory named : Location) (entries : List (String × FileTree))
    (extensions ignored : List String) : Logged (List SourceFile) := do
  let leaves := disk.wantedLeaves directory entries extensions ignored
  let found ← leaves.mapM (disk.readFile? directory named)
  let files := SourceFile.sort (found.filterMap id)
  Logged.tell .debug .files "directory_walked"
    [("root", .str named.path), ("files", .ofNat files.length)]
  pure files

def walk (disk : Disk) (path : String) (extensions ignored : List String) :
    Logged (Except ScanFault (List SourceFile)) :=
  match disk.resolve path with
  | .error fault => pure (.error (.path fault))
  | .ok location =>
    match disk.open? location with
    | .error fault => pure (.error (noDirectory path location fault))
    | .ok (directory, entries) => do
      let files ← disk.walkFrom directory location entries extensions ignored
      pure (.ok files)

end Disk
end TypeAtlas
