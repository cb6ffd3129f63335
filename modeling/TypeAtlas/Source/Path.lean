import TypeAtlas.Text.Lines

/-!
# Paths

A path is a text with slashes between its segments.  Segments that are empty or a single dot say
nothing; two dots lead back.  A `Location` is where a path leads to: the segments from the root of
the file system on.
-/

namespace TypeAtlas

namespace Path

def segments (path : String) : List String :=
  (Text.split '/' path).filter fun segment => segment ≠ "" && segment ≠ "."

/-- Whether a path starts at the root of the file system. -/
def isAbsolute (path : String) : Bool := Text.startsWith path "/"

/-- Whether a path has the character zero in it, and so leads nowhere. -/
def hasZero (path : String) : Bool := path.toList.contains '\x00'

/-- What an absolute path begins with: one slash, but two if it is written with exactly two. -/
def anchor (path : String) : String :=
  if Text.startsWith path "//" && !Text.startsWith path "///" then "//" else "/"

/-- The path without the segments that say nothing; the path to where one is already is a dot. -/
def tidy (path : String) : String :=
  if isAbsolute path then anchor path ++ Text.join "/" (segments path)
  else if (segments path).isEmpty then "."
  else Text.join "/" (segments path)

end Path

/-- A place in the file system, as the segments from its root on. -/
abbrev Location := List String

namespace Location

def path (location : Location) : String := "/" ++ Text.join "/" location

/-- Where segments lead to from a place if no link is in the way. -/
def along (location : Location) : List String → Location
  | [] => location
  | segment :: rest =>
    if segment = "" ∨ segment = "." then along location rest
    else if segment = ".." then along location.dropLast rest
    else along (location ++ [segment]) rest

/-- The segments from a place above down to a place, if it is above. -/
def below? (above location : Location) : Option (List String) :=
  if above.isPrefixOf location then some (location.drop above.length) else none

end Location
end TypeAtlas
