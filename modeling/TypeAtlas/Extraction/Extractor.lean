import TypeAtlas.Extraction.Go
import TypeAtlas.Extraction.Java
import TypeAtlas.Extraction.Swift
import TypeAtlas.Extraction.TypeScript

/-!
# Extractors

An extractor reads the files of one language: it knows the grammar for each file, the types that are
built in, and how to read declarations.  An extractor may be unfinished: without a language it
cannot be made, and without a way to read declarations it fails on every tree.
-/

namespace TypeAtlas

open Syntax

/-- How the files of a language are read. -/
structure Extractor where
  name : String
  language : String
  builtins : List String := []
  grammarFor : String → String := fun _ => language
  visit? : Option Visit := none
  /-- How nested declarations are read, if there are any. -/
  reader? : Option NestedReader := none

/-- Why an extractor has no fragment to give. -/
inductive ExtractorFault where
  /-- It has no language. -/
  | noLanguage (extractor : String)
  /-- It cannot read declarations. -/
  | noVisit (extractor : String)
  /-- A declaration is not valid. -/
  | invalid (report : ValidationReport)
  /-- The stack has no room for the calls that nested declarations take. -/
  | tooDeep
  deriving Repr

def ExtractorFault.message : ExtractorFault → String
  | .noLanguage extractor => extractor ++ " must define LANGUAGE"
  | .noVisit extractor => extractor ++ " must implement _visit"
  | .invalid report => report.render
  | .tooDeep => "maximum recursion depth exceeded"

namespace Extractor

/-- The extractor, if it has a language. -/
def checked (extractor : Extractor) : Except ExtractorFault Extractor :=
  if extractor.language = "" then .error (.noLanguage extractor.name) else .ok extractor

/-- The room that a stack has if nobody asks for more. -/
def stackRoom : Nat := 1000

/-- What is extracted from a tree if the stack has room for all calls that it takes. -/
def extract (extractor : Extractor) (root : Tree) (file : String) :
    Except ExtractorFault Fragment :=
  match extractor.visit? with
  | none => .error (.noVisit extractor.name)
  | some visit => (visit.fragment extractor.builtins root file).mapError .invalid

/-- What is read of a declaration with these entries, if there is room for so many calls. -/
def readOwn (extractor : Extractor) (room : Nat) (tree : Tree) (entries : List Entry) : Reading :=
  match extractor.reader? with
  | none => { entries }
  | some reader => reader.read room (.declaration tree)

/-- What is read of a file, if there is room for so many calls. -/
def readFile (extractor : Extractor) (visit : Visit) (room : Nat) (root : Tree) : Reading :=
  .walk (fun tree => (visit tree).map (extractor.readOwn room tree)) [root]

/-- What is extracted from a tree if the stack has room for so many calls. -/
def extractWithin (extractor : Extractor) (room : Nat) (root : Tree) (file : String) :
    Except ExtractorFault Fragment :=
  match extractor.visit? with
  | none => .error (.noVisit extractor.name)
  | some visit =>
    let reading := extractor.readFile visit room root
    match Builder.addAll ⟨file, extractor.builtins, [], []⟩ reading.entries with
    | .error report => .error (.invalid report)
    | .ok builder => if reading.isComplete then .ok builder.build else .error .tooDeep

def describe (extractor : Extractor) : String :=
  extractor.name ++ "(language=" ++ Text.quote extractor.language ++ ")"

def typeScript : Extractor where
  name := "TypeScriptExtractor"
  language := "typescript"
  builtins := TypeScript.builtins
  grammarFor := TypeScript.grammarFor
  visit? := some TypeScript.visit

def java : Extractor where
  name := "JavaExtractor"
  language := "java"
  builtins := Java.builtins
  visit? := some Java.visit
  reader? := some Java.reader

def swift : Extractor where
  name := "SwiftExtractor"
  language := "swift"
  builtins := Swift.builtins
  visit? := some Swift.visit
  reader? := some Swift.reader

def go : Extractor where
  name := "GoExtractor"
  language := "go"
  builtins := Go.builtins
  visit? := some Go.visit

end Extractor
end TypeAtlas
