import TypeAtlas.Source.FileTree
import TypeAtlas.Source.Path
import TypeAtlas.Text.Quoted
import TypeAtlas.Text.Utf8

/-!
# The disk

A disk is the tree below the root of the file system, and the place where relative paths start.

There are two ways to find out where a path leads.  `Disk.locate` is that of opening a file: every
segment but the last has to be there, and only so many links are followed.  `Disk.resolve` is that
of naming a place: segments that are not there lead on all the same, and any number of links is
followed, as long as none is followed on the way to its own target.
-/

namespace TypeAtlas

/-- The tree below the root of the file system, and the place where relative paths start. -/
structure Disk where
  home : Location := []
  tree : FileTree := .directory []

/-- Why a path leads to no place. -/
inductive PathFault where
  /-- It has the character zero in it. -/
  | zeroCharacter
  /-- It leads through a link that leads back to itself. -/
  | linkLoop (location : Location)
  /-- Its place is too long, or a name on the way to it. -/
  | tooLong (location : Location)
  deriving Repr, DecidableEq

def PathFault.message : PathFault → String
  | .zeroCharacter => "embedded null byte"
  | .linkLoop location => "Symlink loop from " ++ Text.quote location.path
  | .tooLong location => FileFault.nameTooLong.message (Text.quote location.path)

namespace Disk

/-- What stands at a place, without following links. -/
def at? (disk : Disk) (location : Location) : Except FileFault FileTree :=
  disk.tree.at? location

def link? (disk : Disk) (location : Location) : Option String :=
  match disk.at? location with
  | .ok (.link target) => some target
  | _ => none

def directory? (disk : Disk) (location : Location) : Option (List (String × FileTree)) :=
  match disk.at? location with
  | .ok (.directory entries) => some entries
  | _ => none

/-- Where a path starts, or the target of a link in a directory. -/
def startFrom (place : Location) (path : String) : Location :=
  if Path.isAbsolute path then [] else place

/-! ## Opening -/

def linkLimit : Nat := 40

/-- The length of the longest name, in octets. -/
def nameLimit : Nat := 255

/-- The length from which on a path is too long, in octets. -/
def pathLimit : Nat := 4096

/-- Where segments lead to from a place if at most so many links are followed.  The last segment
need not be there, but all others must, and what a segment stands below must be a directory.  A
file that is to be written must not have a slash behind its name. -/
def locateFrom (disk : Disk) (writing : Bool) (links : Nat) (place : Location) :
    List String → Except FileFault Location
  | [] => .ok place
  | segment :: rest =>
    match disk.at? place with
    | .error fault => .error fault
    | .ok (.file _) => .error .notDirectory
    | .ok (.link _) => .error .notDirectory
    | .ok (.directory _) =>
      if segment = "" ∨ segment = "." then locateFrom disk writing links place rest
      else if segment = ".." then locateFrom disk writing links place.dropLast rest
      else if writing && !rest.isEmpty && rest.all String.isEmpty then .error .isDirectory
      else if nameLimit < (Utf8.encode segment).length then .error .nameTooLong
      else
        match disk.link? (place ++ [segment]) with
        | none => locateFrom disk writing links (place ++ [segment]) rest
        | some target =>
          match links with
          | 0 => .error .tooManyLinks
          | fewer + 1 =>
            locateFrom disk writing fewer (startFrom place target) (Text.split '/' target ++ rest)
termination_by segments => (links, segments.length)

/-- Where the file of a path stands, or would stand. -/
def locate (disk : Disk) (writing : Bool) (path : String) : Except FileFault Location :=
  if pathLimit ≤ (Utf8.encode path).length then .error .nameTooLong
  else disk.locateFrom writing linkLimit (startFrom disk.home path) (Path.segments path)

def readAt (disk : Disk) (location : Location) : Except FileFault (List UInt8) :=
  match disk.at? location with
  | .ok (.file octets) => .ok octets
  | .ok (.directory _) => .error .isDirectory
  | .ok (.link _) => .error .noEntry
  | .error fault => .error fault

def read (disk : Disk) (path : String) : Except FileFault (List UInt8) :=
  (disk.locate false path).bind disk.readAt

def put (disk : Disk) (location : Location) (item : FileTree) : Disk :=
  { disk with tree := FileTree.put item location disk.tree }

/-- With a file of a path.  The directory that holds it must be there. -/
def write (disk : Disk) (path : String) (octets : List UInt8) : Except FileFault Disk :=
  match disk.locate true path with
  | .error fault => .error fault
  | .ok location =>
    match disk.directory? location with
    | some _ => .error .isDirectory
    | none => .ok (disk.put location (.file octets))

/-! ## Naming -/

/-- A place as a path names it: from the root of the file system on, or from where relative paths
start. -/
structure Named where
  rooted : Bool
  place : Location
  deriving Repr, DecidableEq

namespace Named

def start (named : Named) (path : String) : Named :=
  if Path.isAbsolute path then ⟨true, []⟩ else named

/-- The place that one segment leads to if nothing is in the way. -/
def below (named : Named) (segment : String) : Named :=
  { named with place := named.place ++ [segment] }

def back (named : Named) : Named := { named with place := named.place.dropLast }

end Named

/-- All links, each named in both ways. -/
def links (disk : Disk) : List Named :=
  (disk.tree.leaves fun _ => false).flatMap fun (place, leaf) =>
    match leaf with
    | .link _ => [⟨false, place⟩, ⟨true, place⟩]
    | _ => []

/-- Where segments lead to from a place if all the given links may be followed.  A link is not
followed again on the way to its target under the same name; if it has to be, there is no such
place, and what is given instead is where the segments lead to if the link is a directory like any
other. -/
def followFrom (disk : Disk) (links : List Named) (here : Named) :
    List String → Except Location Named
  | [] => .ok here
  | segment :: rest =>
    if segment = "" ∨ segment = "." then followFrom disk links here rest
    else if segment = ".." then followFrom disk links here.back rest
    else
      match disk.link? (here.below segment).place with
      | none => followFrom disk links (here.below segment) rest
      | some target =>
        if h : here.below segment ∈ links then
          have : (links.erase (here.below segment)).length < links.length := by
            have hpos := List.length_pos_of_mem h
            rw [List.length_erase_of_mem h]
            omega
          match followFrom disk (links.erase (here.below segment)) (here.start target)
              (Text.split '/' target) with
          | .ok found => followFrom disk links found rest
          | .error stuck => .error (stuck.along rest)
        else .error ((here.below segment).place.along rest)
termination_by segments => (links.length, segments.length)

/-- The place that a path leads to, whether or not something is there. -/
def resolve (disk : Disk) (path : String) : Except PathFault Location :=
  if Path.hasZero path then .error .zeroCharacter
  else
    match disk.followFrom disk.links (Named.start ⟨false, disk.home⟩ path) (Path.segments path) with
    | .ok found => .ok found.place
    | .error place =>
      match disk.locate false place.path with
      | .error .tooManyLinks => .error (.linkLoop place)
      | _ => .ok place

/-- The place of the entry that a path names, which is the entry itself if that is a link. -/
def entryPlace (disk : Disk) (path : String) : Except PathFault Location :=
  let segments := Path.segments path
  match segments.getLast? with
  | none => disk.resolve path
  | some name =>
    let above := Text.join "/" segments.dropLast
    (disk.resolve (if Path.isAbsolute path then "/" ++ above else above)).map fun place =>
      place ++ [name]

def remove (disk : Disk) (path : String) : Except FileFault Disk :=
  match disk.entryPlace path with
  | .error .zeroCharacter => .error .noEntry
  | .error (.tooLong _) => .error .nameTooLong
  | .error (.linkLoop _) => .error .tooManyLinks
  | .ok location =>
    (disk.at? location).map fun _ => { disk with tree := disk.tree.erase location }

/-- The place of the directory that stands at a place, or at the end of the links there, with the
entries of the directory. -/
def open? (disk : Disk) (location : Location) :
    Except FileFault (Location × List (String × FileTree)) :=
  match disk.directory? location with
  | some entries => .ok (location, entries)
  | none =>
    match disk.locate false location.path with
    | .error fault => .error fault
    | .ok place =>
      match disk.directory? place with
      | some entries => .ok (place, entries)
      | none => .error .notDirectory

end Disk
end TypeAtlas
