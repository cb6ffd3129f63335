/-!
# Arguments of a command

Arguments are read from left to right.  An option has a long name with two dashes and may have a
short one, a single character after one dash.  The value of an option is the next argument, whatever
it looks like; it may also be attached, to a long name with an equals sign and to a short name
directly.  Short options without values may share a dash.  Two dashes alone end the options.
-/

namespace TypeAtlas

/-- An option: its long name, its short name, and whether it has a value. -/
structure OptionSpec where
  long : String
  short : Option Char := none
  takesValue : Bool := false
  deriving Repr, DecidableEq

/-- What the arguments of a command say. -/
structure Arguments where
  values : List (String × String) := []
  flags : List String := []
  operands : List String := []
  deriving Repr, DecidableEq

namespace Arguments

def addValue (arguments : Arguments) (name value : String) : Arguments :=
  { arguments with values := arguments.values ++ [(name, value)] }

def addFlags (arguments : Arguments) (names : List String) : Arguments :=
  { arguments with flags := arguments.flags ++ names }

def addOperands (arguments : Arguments) (operands : List String) : Arguments :=
  { arguments with operands := arguments.operands ++ operands }

/-- The last value of an option. -/
def value? (arguments : Arguments) (name : String) : Option String :=
  arguments.values.reverse.lookup name

def has (arguments : Arguments) (name : String) : Bool := arguments.flags.contains name

end Arguments

/-- The options in one argument: those without values, and then perhaps one with a value, which may
be attached. -/
structure OptionGroup where
  flags : List String := []
  valued : Option (String × Option String) := none
  deriving Repr, DecidableEq

namespace OptionGroup

/-- An option with its long name and what follows the equals sign, if there is one. -/
def ofLong? (specs : List OptionSpec) (name : String) (attached : Option String) :
    Option OptionGroup :=
  match specs.find? fun spec => spec.long = name with
  | none => none
  | some spec =>
    if spec.takesValue then some ⟨[], some (name, attached)⟩
    else if attached.isNone then some ⟨[name], none⟩
    else none

def ofShort? (specs : List OptionSpec) : List Char → Option OptionGroup
  | [] => some {}
  | c :: rest =>
    match specs.find? fun spec => spec.short = some c with
    | none => none
    | some spec =>
      if spec.takesValue then
        some ⟨[], some (spec.long, if rest.isEmpty then none else some (String.ofList rest))⟩
      else
        (ofShort? specs rest).map fun group => { group with flags := spec.long :: group.flags }

def isOption (argument : String) : Bool :=
  match argument.toList with
  | '-' :: _ :: _ => true
  | _ => false

def ofArgument? (specs : List OptionSpec) (argument : String) : Option OptionGroup :=
  match argument.toList with
  | '-' :: '-' :: _ =>
    let name := argument.toList.takeWhile (· ≠ '=')
    let attached := match argument.toList.drop name.length with
      | _ :: value => some (String.ofList value)
      | [] => none
    ofLong? specs (String.ofList name) attached
  | '-' :: rest => ofShort? specs rest
  | _ => none

end OptionGroup

namespace Arguments

/-- Reads arguments after those that were read.  If operands may not be followed by options, the
first operand ends the reading, and all from there on are operands. -/
def readAfter (specs : List OptionSpec) (interspersed : Bool) (done : Arguments) :
    List String → Option Arguments
  | [] => some done
  | argument :: rest =>
    if argument = "--" then some (done.addOperands rest)
    else if OptionGroup.isOption argument then
      match OptionGroup.ofArgument? specs argument with
      | none => none
      | some ⟨flags, none⟩ => readAfter specs interspersed (done.addFlags flags) rest
      | some ⟨flags, some (name, some value)⟩ =>
        readAfter specs interspersed ((done.addFlags flags).addValue name value) rest
      | some ⟨flags, some (name, none)⟩ =>
        match rest with
        | [] => none
        | value :: rest =>
          readAfter specs interspersed ((done.addFlags flags).addValue name value) rest
    else if interspersed then readAfter specs interspersed (done.addOperands [argument]) rest
    else some (done.addOperands (argument :: rest))

/-- Reads the arguments of a command; nothing if there is an unknown option, a value where there
should be none, or none where there should be one. -/
def read (specs : List OptionSpec) (interspersed : Bool) (arguments : List String) :
    Option Arguments :=
  readAfter specs interspersed {} arguments

end Arguments
end TypeAtlas
