import TypeAtlas.Text.Lines
import TypeAtlas.Text.Order
import TypeAtlas.Validation.Field

/-!
# Source files, and which of them a scan takes

A file to scan is a path relative to the scanned directory, with a slash between its segments, and
its text.  A scan takes the files that end in one of some extensions and lie in no directory of an
ignored name.
-/

namespace TypeAtlas

/-- A file to scan. -/
structure SourceFile where
  path : String
  content : String
  path_ne : path ≠ ""

namespace SourceFile

/-- The file that a value stands for.  Keys besides the two fields are ignored. -/
def ofJson (input : Json) : Checked SourceFile :=
  Field.object (fun fields =>
    ((Field.required input fields ["path"] Field.nonempty).both
      (Field.required input fields ["content"] Field.text)).map fun (path, content) =>
        ⟨path.text, content, path.ne_empty⟩) input

/-- The file that a value stands for, or a report of what is wrong. -/
def check (input : Json) : Except ValidationReport SourceFile :=
  (ofJson input).titled "SourceFile"

/-- The file of a path and a text, or a report of a path that is empty. -/
def make (path content : String) : Except ValidationReport SourceFile :=
  if h : path ≠ "" then .ok ⟨path, content, h⟩
  else .error ⟨"SourceFile", [⟨["path"], .emptyText, .str path⟩]⟩

/-- Files in the order of their paths; those with equal paths stay in order. -/
def sort (files : List SourceFile) : List SourceFile :=
  files.mergeSort fun file other => Text.le file.path other.path

end SourceFile

def hasExtension (path : String) (extensions : List String) : Bool :=
  extensions.any (Text.endsWith path)

/-- Whether a path leads through a directory of an ignored name. -/
def isIgnored (path : String) (ignored : List String) : Bool :=
  (Text.split '/' path).dropLast.any ignored.contains

end TypeAtlas
