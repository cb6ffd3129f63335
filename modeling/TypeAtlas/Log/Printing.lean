import TypeAtlas.Log.Event
import TypeAtlas.Text.Order

/-!
# Log lines

Which events are written, and how: as one line for a console, with the parts in columns and the
fields in the order of their keys, or as one object per line.  Below a line for a console stand the
texts of the fields `stack` and `exception`.  The threshold comes from a name; a name that is not
known stands for `INFO`.
-/

namespace TypeAtlas

/-- The layouts of log lines. -/
inductive LogFormat where
  | console | json
  deriving Repr, DecidableEq

def LogFormat.name : LogFormat → String
  | .console => "console"
  | .json => "json"

/-- The rank from which on events are written. -/
abbrev Threshold := Nat

namespace Threshold

def named : List (String × Threshold) :=
  [("CRITICAL", 50), ("FATAL", 50), ("ERROR", 40), ("WARNING", 30), ("WARN", 30), ("INFO", 20),
    ("DEBUG", 10), ("NOTSET", 0)]

/-- A character in upper case, as far as the names of thresholds are concerned: besides the letters
from `a` to `z`, the dotless `ı` and the long `ſ` have such an upper case. -/
def upperChar (c : Char) : Char :=
  if c = 'ı' then 'I' else if c = 'ſ' then 'S' else c.toUpper

/-- Why a name stands for no threshold: it is that of something else. -/
inductive Fault where
  /-- The layout of lines. -/
  | layout
  /-- The table of the layouts. -/
  | layouts
  deriving Repr, DecidableEq

def reserved : List (String × Fault) :=
  [("BASIC_FORMAT", .layout), ("_STYLES", .layouts)]

def Fault.message : Fault → String
  | .layout => "Unknown level: '%(levelname)s:%(name)s:%(message)s'"
  | .layouts =>
    "Level not an integer or a valid string: \x7b" ++
      "'%': (<class 'logging.PercentStyle'>, '%(levelname)s:%(name)s:%(message)s'), " ++
      "'\x7b': (<class 'logging.StrFormatStyle'>, " ++
      "'\x7blevelname\x7d:\x7bname\x7d:\x7bmessage\x7d'), " ++
      "'$': (<class 'logging.StringTemplateStyle'>, " ++
      "'$\x7blevelname\x7d:$\x7bname\x7d:$\x7bmessage\x7d')\x7d"

/-- The threshold of a name in any case. -/
def ofName (name : String) : Except Fault Threshold :=
  let upper := name.map upperChar
  match reserved.lookup upper with
  | some fault => .error fault
  | none => .ok ((named.lookup upper).getD 20)

def admits (threshold : Threshold) (event : Event) : Bool := threshold ≤ event.level.rank

end Threshold

namespace Event

def padded (width : Nat) (text : String) : String :=
  text ++ String.ofList (List.replicate (width - text.length) ' ')

def quotedChars : List Char := [' ', '\t', '=', '\r', '\n', '"', '\'']

/-- A field's value in a line: a plain text as it is, everything else as in messages. -/
def fieldText : Json → String
  | .str text => if text.toList.any quotedChars.contains then Text.quote text else text
  | value => value.inMessage

def sortedFields (fields : List (String × Json)) : List (String × Json) :=
  fields.mergeSort fun field other => Text.le field.1 other.1

/-- The keys of the parts that every line has; a field of such a key gives way to the part. -/
def partKeys : List String := ["timestamp", "level", "logger", "event"]

/-- The keys of fields that ask for the state of the program in a line, and are not written. -/
def requestKeys : List String := ["exc_info", "stack_info"]

def ownFields (event : Event) : List (String × Json) :=
  event.fields.filter fun field => !(partKeys ++ requestKeys).contains field.1

/-! ## Lines for a console -/

/-- Why an event has no line: what should stand below it is no text. -/
inductive LineFault where
  | notText (value : Json)
  deriving Repr

def LineFault.message : LineFault → String
  | .notText value => "can only concatenate str (not \"" ++ value.kindInMessage ++ "\") to str"

def firstKey : String := ""

/-- The key of a field that stands beside the channel, without its key. -/
def besideKey : String := "logger_name"

/-- The key of a field that is written below the line: where the event was told. -/
def stackKey : String := "stack"

/-- The key of a field that is written below the line: what went wrong. -/
def exceptionKey : String := "exception"

/-- The text that a field has below a line; null is no text. -/
def below? (event : Event) (key : String) : Except LineFault (Option String) :=
  match event.fields.lookup key with
  | none => .ok none
  | some .null => .ok none
  | some (.str text) => .ok (some text)
  | some value => .error (.notText value)

/-- What stands below a line, with a rule between the two texts. -/
def lowerLines : (stack exception : Option String) → String
  | none, none => ""
  | some stack, none => "\n" ++ stack
  | none, some exception => "\n" ++ exception
  | some stack, some exception =>
    "\n" ++ stack ++ "\n\n" ++ String.ofList (List.replicate 79 '=') ++ "\n\n" ++ exception

def fieldPart (field : String × Json) : String := field.1 ++ "=" ++ fieldText field.2

/-- The parts of a line, with a blank between them. -/
def upperLine (event : Event) (stamp : String) : String :=
  let fields := event.ownFields
  let apart := [firstKey, besideKey, stackKey, exceptionKey]
  let others := fields.filter fun field => !apart.contains field.1
  String.intercalate " "
    ((fields.filter fun field => field.1 = firstKey).map fieldPart ++
      [stamp, "[" ++ padded 9 event.level.name ++ "]", padded 30 event.name,
        "[" ++ event.channel.name ++ "]"] ++
      (fields.filter fun field => field.1 = besideKey).map (fun field =>
        "[" ++ field.2.bare ++ "]") ++
      (sortedFields others).map fieldPart)

/-- The line of an event for a console, with what stands below it. -/
def consoleLine (event : Event) (stamp : String) : Except LineFault String := do
  let stack ← event.below? stackKey
  let exception ← event.below? exceptionKey
  pure (event.upperLine stamp ++ lowerLines stack exception)

/-! ## Objects -/

/-- What an event is told as, with the name of its channel. -/
def allParts (event : Event) (channelName : String) : List (String × Json) :=
  (event.ownFields.filter fun field => field.1 != "message") ++
    [("message", .str event.name), ("level", .str event.level.name), ("logger", .str channelName)]

/-- An event as a value, with the name of its channel. -/
def toJson (event : Event) (channelName : String) : Json :=
  .obj (event.allParts channelName)

def stamped (event : Event) (stamp : String) : Json :=
  .obj (event.allParts event.channel.name ++ [("timestamp", .str stamp)])

def line (event : Event) (stamp : String) : LogFormat → Except LineFault String
  | .console => event.consoleLine stamp
  | .json => .ok (event.stamped stamp).compact

end Event
end TypeAtlas
