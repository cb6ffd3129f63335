import TypeAtlas.Text.Columns
import TypeAtlas.Text.Lines

/-!
# Texts on a console

A console shows a text without the controls that would move it about, and with spaces in the place
of tabs.  A text that stands among marked-up words is written so that none of its own brackets is
read as a tag.  Tags come out as they were; a backslash right before a bracket that opens no tag is
taken for part of such writing and does not come out.
-/

namespace TypeAtlas.Console

/-- The controls that are not shown: bell, backspace, vertical tab, form feed, carriage return. -/
def hiddenControls : List Char := ['\x07', '\x08', '\x0b', '\x0c', '\r']

def shown (text : String) : String :=
  String.ofList (Text.expandTabsFrom 0 (text.toList.filter fun c => !hiddenControls.contains c))

def beginsTag (c : Char) : Bool := c.isLower || c = '#' || c = '/' || c = '@'

/-- Whether a bracket opens a tag, given what stands behind it: another bracket has to close it
before the next one opens. -/
def opensTag : List Char → Bool
  | [] => false
  | c :: rest => beginsTag c && rest.find? (fun c => c = '[' || c = ']') = some ']'

/-- The characters of a text that come out if it is written among marked-up words. -/
def amongMarkup : List Char → List Char
  | [] => []
  | '\\' :: '[' :: rest =>
    if opensTag rest then '\\' :: '[' :: amongMarkup rest else '[' :: amongMarkup rest
  | c :: rest => c :: amongMarkup rest

/-- A text that stands among marked-up words, with a tag right behind it. -/
def inner (text : String) : String := String.ofList (amongMarkup text.toList)

/-- Whether a text ends with one backslash and not with more. -/
def endsInOneBackslash (text : String) : Bool :=
  Text.endsWith text "\\" && !Text.endsWith text "\\\\"

/-- A text that stands among marked-up words, with no tag right behind it: a single backslash at its
end comes out twice. -/
def outer (text : String) : String :=
  inner text ++ if endsInOneBackslash text then "\\" else ""

end TypeAtlas.Console
