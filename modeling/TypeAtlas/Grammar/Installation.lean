import TypeAtlas.Text.Quoted

/-!
# What is installed

Parsing needs a core library, and grammars come from two sources: native modules, one or more
exports each, and a pack that holds many grammars.  An `Installation` says which of these can be
imported and what happens if they are; an `ImportFault` is why something cannot be had.
-/

namespace TypeAtlas

/-- Why something cannot be imported or used. -/
inductive ImportFault where
  /-- There is no such module. -/
  | noModule (module : String)
  /-- The module does not offer a name. -/
  | noName (name module : String)
  /-- The module has no such export. -/
  | noExport (module export_ : String)
  /-- The export fails when it is called. -/
  | raised (message : String)
  /-- The core lacks one of its two classes. -/
  | incompleteCore
  /-- The pack has no way to look up a grammar. -/
  | noLookup
  /-- The pack does not have a grammar. -/
  | notInPack (grammar : String)
  deriving Repr, DecidableEq

def coreModule : String := "tree_sitter"

def packModule : String := "tree_sitter_language_pack"

def ImportFault.message : ImportFault → String
  | .noModule module => "No module named " ++ Text.quote module
  | .noName name module =>
    "cannot import name " ++ Text.quote name ++ " from " ++ Text.quote module ++
      " (unknown location)"
  | .noExport module export_ =>
    "module " ++ Text.quote module ++ " has no attribute " ++ Text.quote export_
  | .raised message => message
  | .incompleteCore => coreModule ++ " binding lacks Language/Parser"
  | .noLookup => packModule ++ " has no get_language()"
  | .notInPack grammar => "Could not find language library for " ++ grammar

/-- The state of the core library.  In every state its parsers, if it has any, take each grammar
that can be loaded (`Parser.boundTo`). -/
inductive Core where
  | complete | missing | withoutParser | withoutLanguage
  deriving Repr, DecidableEq

/-- What an export does when it is called. -/
inductive ExportBehaviour where
  | works
  | fails (message : String)
  deriving Repr, DecidableEq

/-- The grammars of a pack. -/
structure Pack where
  grammars : List String
  deriving Repr, DecidableEq

/-- The state of the pack. -/
inductive PackState where
  | missing | withoutLookup
  | installed (pack : Pack)
  deriving Repr, DecidableEq

/-- What can be imported. -/
structure Installation where
  core : Core := .complete
  native : List (String × List (String × ExportBehaviour)) := []
  pack : PackState := .missing
  deriving Repr

namespace Installation

/-- The fault of importing the class for grammars from the core, if there is one. -/
def languageFault? (installed : Installation) : Option ImportFault :=
  match installed.core with
  | .missing => some (.noModule coreModule)
  | .withoutLanguage => some (.noName "Language" coreModule)
  | _ => none

/-- The fault of importing the class for parsers from the core, if there is one. -/
def parserFault? (installed : Installation) : Option ImportFault :=
  match installed.core with
  | .missing => some (.noModule coreModule)
  | .withoutParser => some (.noName "Parser" coreModule)
  | _ => none

/-- The fault that makes the core unusable for native grammars, if there is one. -/
def coreFault? (installed : Installation) : Option ImportFault :=
  match installed.core with
  | .complete => none
  | .missing => some (.noModule coreModule)
  | _ => some .incompleteCore

def export? (installed : Installation) (module export_ : String) :
    Except ImportFault ExportBehaviour :=
  match installed.native.lookup module with
  | none => .error (.noModule module)
  | some exports =>
    match exports.lookup export_ with
    | none => .error (.noExport module export_)
    | some behaviour => .ok behaviour

/-- The pack, if it can be imported and used. -/
def pack? (installed : Installation) : Except ImportFault Pack :=
  match installed.pack with
  | .missing => .error (.noModule packModule)
  | .withoutLookup => .error .noLookup
  | .installed pack => .ok pack

end Installation
end TypeAtlas
