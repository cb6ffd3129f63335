import TypeAtlas.Failure
import TypeAtlas.Grammar.Installation
import TypeAtlas.Source.Disk
import TypeAtlas.Validation.Issue

/-!
# Why a scan has no result

Most of what goes wrong in a scan is confined to a file.  What is not: a failure of its input, that
no parser can be created, that a path leads nowhere, that the directory lies outside the working
tree of its repository, and that the repository itself is broken.
-/

namespace TypeAtlas

/-- Why a scan has no result. -/
inductive ScanFault where
  /-- The directory or the language filter is not valid. -/
  | failed (failure : Failure)
  /-- No parser can be created. -/
  | noParser (fault : ImportFault)
  /-- The directory is not in the working tree of the repository that was found for it. -/
  | outsideWorktree (directory worktree : String)
  /-- The path of the directory or of the working tree leads nowhere. -/
  | path (fault : PathFault)
  /-- An entry of a commit makes no file. -/
  | invalidFile (report : ValidationReport)
  /-- The repository cannot be read. -/
  | brokenStore
  deriving Repr

def ScanFault.message : ScanFault → String
  | .failed failure => failure.text
  | .noParser fault => fault.message
  | .outsideWorktree directory worktree =>
    Text.quote directory ++ " is not in the subpath of " ++ Text.quote worktree ++
      " OR one path is relative and the other is absolute."
  | .path fault => fault.message
  | .invalidFile report => report.render
  | .brokenStore => "object store broken"

end TypeAtlas
