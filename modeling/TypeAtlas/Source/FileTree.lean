import TypeAtlas.Entries

/-!
# File trees

What a directory holds: files with their octets, links with the path that they lead to, and further
directories.  `FileTree.leaves` lists the files and links of a tree with the segments that lead to
them, and does not go into directories of some names.
-/

namespace TypeAtlas

/-- A file, a link or a directory with its entries.  Names are Unicode texts: names that are not,
and what is none of the three, such as a device or a pipe, are left out. -/
inductive FileTree where
  | file (octets : List UInt8)
  | link (target : String)
  | directory (entries : List (String × FileTree))

/-- Why a file cannot be read or written: where it stands, or what stands there.  That access is not
permitted, and that the medium fails, is left out. -/
inductive FileFault where
  | noEntry | notDirectory | isDirectory | nameTooLong | tooManyLinks
  deriving Repr, DecidableEq

def FileFault.message (path : String) : FileFault → String
  | .noEntry => "[Errno 2] No such file or directory: " ++ path
  | .notDirectory => "[Errno 20] Not a directory: " ++ path
  | .isDirectory => "[Errno 21] Is a directory: " ++ path
  | .nameTooLong => "[Errno 36] File name too long: " ++ path
  | .tooManyLinks => "[Errno 40] Too many levels of symbolic links: " ++ path

namespace FileTree

/-- The entries of a directory; everything else has none. -/
def entries : FileTree → List (String × FileTree)
  | directory entries => entries
  | _ => []

def isDirectory : FileTree → Bool
  | directory _ => true
  | _ => false

/-- What stands at the end of a list of segments.  Links are not followed. -/
def at? (tree : FileTree) : List String → Except FileFault FileTree
  | [] => .ok tree
  | name :: rest =>
    match tree with
    | directory entries =>
      match entries.lookup name with
      | some child => child.at? rest
      | none => .error .noEntry
    | file _ => .error .notDirectory
    | link _ => .error .noEntry

/-- With something at the end of a list of segments; directories on the way there are added. -/
def put (item : FileTree) : List String → FileTree → FileTree
  | [], _ => item
  | name :: rest, tree =>
    let child := (tree.entries.lookup name).getD (directory [])
    directory (putEntry tree.entries name (put item rest child))

/-- Without what stands at the end of a list of segments. -/
def erase : List String → FileTree → FileTree
  | [], tree => tree
  | [name], tree => directory (tree.entries.filter fun entry => entry.1 ≠ name)
  | name :: rest, tree =>
    match tree.entries.lookup name with
    | none => tree
    | some child => directory (putEntry tree.entries name (erase rest child))

mutual

/-- The files and links of a tree with the segments that lead to them, but for those in directories
whose names are to be skipped. -/
def leaves (skip : String → Bool) : FileTree → List (List String × FileTree)
  | file octets => [([], file octets)]
  | link target => [([], link target)]
  | directory entries => leavesIn skip entries

def leavesIn (skip : String → Bool) : List (String × FileTree) → List (List String × FileTree)
  | [] => []
  | (name, tree) :: rest =>
    (if tree.isDirectory && skip name then []
      else (leaves skip tree).map fun leaf => (name :: leaf.1, leaf.2)) ++
      leavesIn skip rest

end

end FileTree
end TypeAtlas
