import TypeAtlas.Text.Blank
import TypeAtlas.Text.Lines

/-!
# Words for figures

Plurals and signs as the reports write them, and the layout of a report: sections of lines, each
followed by an empty line, with nothing blank at the end.
-/

namespace TypeAtlas.Report

/-- The plural of a word for more than one thing, and the word itself otherwise. -/
def plural (word : String) (count : Nat) : String :=
  if count ≤ 1 then word
  else if Text.endsWith word "s" then word ++ "es"
  else word ++ "s"

/-- A count with a word that forms its plural with an `s`. -/
def counted (count : Nat) (word : String) : String :=
  toString count ++ " " ++ word ++ if 1 < count then "s" else ""

/-- A difference, with a sign unless it is zero. -/
def signed (difference : Int) : String :=
  if 0 < difference then "+" ++ toString difference else toString difference

def change (before after : Nat) : Int := (after : Int) - (before : Int)

/-- A section: a heading, an empty line, its lines and another empty line; nothing if there are no
lines. -/
def titled (heading : String) (lines : List String) : List String :=
  if lines.isEmpty then [] else heading :: "" :: (lines ++ [""])

def layOut (lines : List String) : String := Text.trimEnd (Text.join "\n" lines)

end TypeAtlas.Report
