import TypeAtlas.Command.Arguments
import TypeAtlas.Source.Path
import TypeAtlas.Text.Blank

/-!
# What the program is asked to do

The program has options of its own, then the name of a command and the arguments of the command.
The commands are `scan`, `diff` and `hook`.
-/

namespace TypeAtlas

/-- The commands. -/
inductive CommandName where
  | scan | diff | hook
  deriving Repr, DecidableEq

def CommandName.ofName? (name : String) : Option CommandName :=
  if name = "scan" then some .scan
  else if name = "diff" then some .diff
  else if name = "hook" then some .hook
  else none

/-- What the arguments of the program say. -/
inductive ProgramCall where
  /-- They are not right. -/
  | misused
  /-- Help is asked for. -/
  | help
  /-- The version is asked for. -/
  | version
  /-- A command with its arguments. -/
  | command (verbose : Bool) (name : CommandName) (arguments : List String)
  deriving Repr, DecidableEq

/-- A command with its options and its directory. -/
inductive Request where
  | scan (directory : String) (output : Option String) (json : Bool) (languages : Option String)
  | diff (directory : String) (ref : Option String) (json : Bool) (baseline : Option String)
  | hook (directory : String) (ref : Option String) (json : Bool)
  deriving Repr, DecidableEq

def Request.paths : Request → List String
  | .scan directory output _ _ => directory :: output.toList
  | .diff directory _ _ baseline => directory :: baseline.toList
  | .hook directory _ _ => [directory]

/-- What the arguments of a command say. -/
inductive CommandCall where
  /-- They are not right. -/
  | misused
  /-- Help is asked for. -/
  | help
  /-- A command. -/
  | request (request : Request)
  deriving Repr, DecidableEq

def helpOption : OptionSpec := ⟨"--help", none, false⟩

/-- The option that asks for documents instead of reports. -/
def jsonOption : OptionSpec := ⟨"--json", none, false⟩

def refOption : OptionSpec := ⟨"--ref", some 'r', true⟩

namespace ProgramCall

def specs : List OptionSpec :=
  [⟨"--verbose", some 'v', false⟩, ⟨"--version", none, false⟩, helpOption]

/-- What a flag asks for, if there is one that is heeded before everything else. -/
def ofFlags? (read : Arguments) : Option ProgramCall :=
  (read.flags.find? fun flag => flag = "--version" || flag = "--help").map fun flag =>
    if flag = "--version" then .version else .help

/-- What is asked for by operands of which the first names no command: they are read once more, as
what stands behind two dashes may be an option after all. -/
def ofUnknown (operands : List String) : ProgramCall :=
  ((Arguments.read specs false operands).bind ofFlags?).getD .misused

def ofArguments (arguments : List String) : ProgramCall :=
  match Arguments.read specs false arguments with
  | none => .misused
  | some read =>
    match ofFlags? read with
    | some call => call
    | none =>
      match read.operands with
      | [] => .misused
      | name :: rest =>
        match CommandName.ofName? name with
        | none => ofUnknown read.operands
        | some found => .command (read.has "--verbose") found rest

end ProgramCall

namespace CommandCall

def specs : CommandName → List OptionSpec
  | .scan =>
    [⟨"--output", some 'o', true⟩, jsonOption, ⟨"--languages", some 'l', true⟩, helpOption]
  | .diff => [refOption, jsonOption, ⟨"--baseline", none, true⟩, helpOption]
  | .hook => [refOption, jsonOption, helpOption]

def requestFor (name : CommandName) (arguments : Arguments) (directory : String) : Request :=
  let json := arguments.has jsonOption.long
  let ref := arguments.value? refOption.long
  match name with
  | .scan =>
    .scan directory ((arguments.value? "--output").map Path.tidy) json
      (arguments.value? "--languages")
  | .diff => .diff directory ref json ((arguments.value? "--baseline").map Path.tidy)
  | .hook => .hook directory ref json

/-- The request of a command; only `hook` has a directory of its own accord. -/
def requestOf? (name : CommandName) (arguments : Arguments) : Option Request :=
  match arguments.operands with
  | [] => if name = .hook then some (requestFor name arguments ".") else none
  | [directory] => some (requestFor name arguments (Path.tidy directory))
  | _ => none

def ofArguments (name : CommandName) (arguments : List String) : CommandCall :=
  match Arguments.read (specs name) true arguments with
  | none => .misused
  | some read =>
    if read.has helpOption.long then .help
    else
      match requestOf? name read with
      | none => .misused
      | some found => if found.paths.any Path.hasZero then .misused else .request found

end CommandCall

namespace Request

/-- The languages of a filter with commas; an empty filter is no filter. -/
def filters (languages : Option String) : Option (List String) :=
  match languages with
  | none => none
  | some text =>
    if text = "" then none
    else some (((Text.split ',' text).map Text.trim).filter (· ≠ ""))

/-- The revision to compare with; an empty name counts as none. -/
def refOr (ref : Option String) (fallback : String) : String :=
  match ref with
  | none => fallback
  | some name => if name = "" then fallback else name

end Request
end TypeAtlas
