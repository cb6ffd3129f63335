import TypeAtlas.Calendar.Reading
import TypeAtlas.Json.Message

/-!
# What is wrong with a value

A value that is checked against what it should be gives either the thing that it stands for or the
list of everything that is wrong with it.  Each `Issue` says where (the keys and positions on the
way to it), what (a `Problem`, which has a code and a message) and with which value.

`Checked.both` is how two checks are put together: if both fail, both lists are kept, in order.
-/

namespace TypeAtlas

/-- What can be wrong with a value. -/
inductive Problem where
  | missing
  | extra
  | notText
  | emptyText
  | notObject
  | notArray
  | notTuple
  | notMember (names : List String)
  | notLiteral (names : List String)
  | notInteger
  | fractional
  | unreadableInteger
  | oversizedInteger
  | notFinite
  | below (least : Nat)
  | badTime (fault : TimeFault)
  | notBool
  | unreadableBool
  | malformed (description : String)
  deriving Repr, DecidableEq

namespace Problem

def code : Problem → String
  | .missing => "missing"
  | .extra => "extra_forbidden"
  | .notText => "string_type"
  | .emptyText => "string_too_short"
  | .notObject => "model_type"
  | .notArray => "tuple_type"
  | .notTuple => "tuple_type"
  | .notMember _ => "enum"
  | .notLiteral _ => "literal_error"
  | .notInteger => "int_type"
  | .fractional => "int_from_float"
  | .unreadableInteger => "int_parsing"
  | .oversizedInteger => "int_parsing_size"
  | .notFinite => "finite_number"
  | .below _ => "greater_than_equal"
  | .badTime .notTime => "datetime_type"
  | .badTime (.text _) => "datetime_from_date_parsing"
  | .badTime _ => "datetime_parsing"
  | .notBool => "bool_type"
  | .unreadableBool => "bool_parsing"
  | .malformed _ => "json_invalid"

/-- Quoted names, with commas between them and an "or" before the last. -/
def alternatives (names : List String) : String :=
  match names.map Text.quote with
  | [] => ""
  | [name] => name
  | quoted => String.intercalate ", " quoted.dropLast ++ " or " ++ quoted.getLastD ""

def message : Problem → String
  | .missing => "Field required"
  | .extra => "Extra inputs are not permitted"
  | .notText => "Input should be a valid string"
  | .emptyText => "String should have at least 1 character"
  | .notObject => "Input should be an object"
  | .notArray => "Input should be a valid array"
  | .notTuple => "Input should be a valid tuple"
  | .notMember names => "Input should be " ++ alternatives names
  | .notLiteral names => "Input should be " ++ alternatives names
  | .notInteger => "Input should be a valid integer"
  | .fractional => "Input should be a valid integer, got a number with a fractional part"
  | .unreadableInteger =>
    "Input should be a valid integer, unable to parse string as an integer"
  | .oversizedInteger => "Unable to parse input string as an integer, exceeded maximum size"
  | .notFinite => "Input should be a finite number"
  | .below least => "Input should be greater than or equal to " ++ toString least
  | .badTime .notTime => "Input should be a valid datetime"
  | .badTime .yearZero => "Input should be a valid datetime, year 0 is out of range"
  | .badTime .notANumber => "Input should be a valid datetime, NaN values not permitted"
  | .badTime (.number fault) => "Input should be a valid datetime, " ++ fault.message
  | .badTime (.text fault) => "Input should be a valid datetime or date, " ++ fault.message
  | .notBool => "Input should be a valid boolean"
  | .unreadableBool => "Input should be a valid boolean, unable to interpret input"
  | .malformed description => "Invalid JSON: " ++ description

end Problem

/-- A problem, where it is, and the value that has it. -/
structure Issue where
  location : List String
  problem : Problem
  input : Json
  deriving Repr

/-- The keys and positions on the way to an issue, with dots between them. -/
def Issue.path (issue : Issue) : String :=
  String.intercalate "." issue.location

/-- The outcome of a check: the value that was meant, or all that is wrong. -/
abbrev Checked (α : Type) := Except (List Issue) α

namespace Checked

/-- A check that fails with one problem of the value itself. -/
def fail (problem : Problem) (input : Json) : Checked α :=
  .error [⟨[], problem, input⟩]

/-- Puts a key or a position in front of the places of all issues. -/
def under (key : String) (outcome : Checked α) : Checked α :=
  outcome.mapError fun issues =>
    issues.map fun issue => { issue with location := key :: issue.location }

/-- Two checks together; the issues of the first come first. -/
def both (first : Checked α) (second : Checked β) : Checked (α × β) :=
  match first, second with
  | .ok a, .ok b => .ok (a, b)
  | .ok _, .error issues => .error issues
  | .error issues, .ok _ => .error issues
  | .error issues, .error more => .error (issues ++ more)

/-- The checks of a list together, each under its position, which counts from `start`. -/
def eachFrom (check : Json → Checked α) : (start : Nat) → List Json → Checked (List α)
  | _, [] => .ok []
  | start, item :: items =>
    (both (under (toString start) (check item)) (eachFrom check (start + 1) items)).map
      fun (value, values) => value :: values

end Checked

/-- All that is wrong with a value, and the name of what it should have been. -/
structure ValidationReport where
  title : String
  issues : List Issue
  deriving Repr

def Checked.titled (title : String) (outcome : Checked α) : Except ValidationReport α :=
  outcome.mapError fun issues => ⟨title, issues⟩

namespace ValidationReport

/-- The longest text of a value that a report quotes in full, in octets. -/
def quotedLimit : Nat := 50

/-- The characters of a list whose octets fit into a number of octets. -/
def takeOctets (limit : Nat) : List Char → List Char
  | [] => []
  | c :: rest =>
    if Utf8.charSize c ≤ limit then c :: takeOctets (limit - Utf8.charSize c) rest else []

/-- A quoted value, without its middle if it is long. -/
def shorten (text : String) : String :=
  let chars := text.toList
  if (Utf8.encodeChars chars).length ≤ quotedLimit then text
  else
    let front := takeOctets 25 chars
    let back := (takeOctets 24 chars.reverse).reverse
    String.ofList (front ++ ['.', '.', '.'] ++ back)

def explanation (problem : Problem) : String :=
  "https://errors.pydantic.dev/2.14/v/" ++ problem.code

/-- One issue of a report, on two lines or three. -/
def renderIssue (issue : Issue) : String :=
  (if issue.location.isEmpty then "" else issue.path ++ "\n") ++
    "  " ++ issue.problem.message ++ " [type=" ++ issue.problem.code ++
    ", input_value=" ++ shorten issue.input.inMessage ++
    ", input_type=" ++ issue.input.kindInMessage ++ "]\n" ++
    "    For further information visit " ++ explanation issue.problem

def render (report : ValidationReport) : String :=
  let count := report.issues.length
  toString count ++ " validation error" ++ (if count = 1 then "" else "s") ++ " for " ++
    report.title ++ "\n" ++ String.intercalate "\n" (report.issues.map renderIssue)

end ValidationReport
end TypeAtlas
