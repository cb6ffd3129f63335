import TypeAtlas.Extraction.Extractor
import TypeAtlas.Failure
import TypeAtlas.Source.File

/-!
# The supported languages

Each language has the extensions of its files, an extractor, the grammars that its files are parsed
with, and further names by which a filter may ask for it.  A filter is resolved to languages of the
table, in the order of the table; a file belongs to the first of the admitted languages that has its
extension.
-/

namespace TypeAtlas

/-- A supported language. -/
structure Language where
  name : String
  extensions : List String
  extractor : Extractor
  grammars : List String
  aliases : List String := []

namespace Language

/-- TypeScript, with and without markup. -/
def typeScript : Language :=
  ⟨"typescript", [".ts", ".tsx"], Extractor.typeScript, ["typescript", "tsx"], ["ts", "tsx"]⟩

def java : Language := ⟨"java", [".java"], Extractor.java, ["java"], []⟩

def swift : Language := ⟨"swift", [".swift"], Extractor.swift, ["swift"], []⟩

def go : Language := ⟨"go", [".go"], Extractor.go, ["go"], ["golang"]⟩

def table : List Language := [typeScript, java, swift, go]

def supported : List String := table.map name

def covers (language : Language) (path : String) : Bool := hasExtension path language.extensions

def isNamed (language : Language) (filter : String) : Bool :=
  filter = language.name || language.aliases.contains filter

/-- A filter without the blanks around it and in lower case. -/
def normalize (filter : String) : String := Text.lowerAscii (Text.trim filter)

/-- The names of the languages that the filters ask for.  Blank filters ask for nothing; the first
one that is not known is the failure. -/
def wanted : List String → Except Failure (List String)
  | [] => .ok []
  | filter :: rest =>
    if normalize filter = "" then wanted rest
    else
      match table.find? fun language => language.isNamed (normalize filter) with
      | none => .error (.unknownLanguage filter supported)
      | some language => (wanted rest).map (language.name :: ·)

/-- The languages that the filters ask for, in the order of the table, or nothing if there is no
filter that is not blank: then all languages are admitted. -/
def resolve (filters : Option (List String)) : Except Failure (Option (List Language)) :=
  match filters with
  | none => .ok none
  | some filters =>
    (wanted filters).map fun names =>
      if names.isEmpty then none
      else some (table.filter fun language => names.contains language.name)

def admitted (languages : Option (List Language)) : List Language := languages.getD table

def allExtensions (languages : Option (List Language)) : List String :=
  (admitted languages).flatMap extensions

def dispatch (path : String) (languages : Option (List Language)) : Option Language :=
  (admitted languages).find? fun language => language.covers path

end Language
end TypeAtlas
