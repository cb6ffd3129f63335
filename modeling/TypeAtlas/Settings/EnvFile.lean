import TypeAtlas.Entries
import TypeAtlas.Text.Blank

/-!
# Files of settings

A file of settings binds names to values, one binding on a line: a name, an equals sign and a value,
perhaps after the word `export`, perhaps with a comment behind it.  A value may stand in quotes, and
then goes on over the ends of lines and has escapes.  A line that is no binding is skipped.

In a value, a name between `${` and `}` stands for what the name is bound to: by the file so far, or
else by the environment.
-/

namespace TypeAtlas.EnvFile

open Text

/-- Something that was read and what is left after it, or what is left where reading failed. -/
abbrev Step (α : Type) := Except (List Char) (α × List Char)

def isInlineBlank (c : Char) : Bool := isBlank c && c ≠ '\n'

def nextLine (chars : List Char) : List Char := (chars.dropWhile (· ≠ '\n')).drop 1

/-- The characters without the word `export` and the blanks after it. -/
def dropExport (chars : List Char) : List Char :=
  let word := "export".toList
  if word.isPrefixOf chars && ((chars.drop word.length).head?.any isInlineBlank) then
    (chars.drop word.length).dropWhile isInlineBlank
  else chars

/-- A name, with or without quotes.  In front of a comment there is none. -/
def scanName : List Char → Step (Option String)
  | '#' :: rest => .ok (none, '#' :: rest)
  | '\'' :: rest =>
    let name := rest.takeWhile (· ≠ '\'')
    match rest.drop name.length with
    | _ :: after =>
      if name.isEmpty then .error ('\'' :: rest) else .ok (some (String.ofList name), after)
    | [] => .error ('\'' :: rest)
  | chars =>
    let name := chars.takeWhile fun c => c ≠ '=' && c ≠ '#' && !isBlank c
    if name.isEmpty then .error chars
    else .ok (some (String.ofList name), chars.drop name.length)

/-- What stands up to the quote that closes a value, in reverse, and what is left.  A character
after a backslash closes nothing. -/
def scanQuoted (mark : Char) (read : List Char) : List Char → Option (List Char × List Char)
  | [] => none
  | '\\' :: c :: rest => scanQuoted mark (c :: '\\' :: read) rest
  | c :: rest => if c = mark then some (read, rest) else scanQuoted mark (c :: read) rest

/-- The character that an escape in single quotes stands for. -/
def singleEscape? (c : Char) : Option Char :=
  if c = '\\' || c = '\'' then some c else none

/-- The character that an escape in double quotes stands for. -/
def doubleEscape? (c : Char) : Option Char :=
  match c with
  | '\\' => some '\\'
  | '\'' => some '\''
  | '"' => some '"'
  | 'a' => some '\x07'
  | 'b' => some '\x08'
  | 'f' => some '\x0c'
  | 'n' => some '\n'
  | 'r' => some '\r'
  | 't' => some '\t'
  | 'v' => some '\x0b'
  | _ => none

def unescape (escape? : Char → Option Char) : List Char → List Char
  | [] => []
  | '\\' :: c :: rest =>
    match escape? c with
    | some resolved => resolved :: unescape escape? rest
    | none => '\\' :: unescape escape? (c :: rest)
  | c :: rest => c :: unescape escape? rest

/-- The characters before a comment, which has at least one blank in front of it. -/
def beforeComment : List Char → List Char
  | [] => []
  | c :: rest =>
    if isBlank c && (dropBlanks rest).head? = some '#' then [] else c :: beforeComment rest

def scanQuotedValue (mark : Char) (escape? : Char → Option Char) (rest : List Char) : Step String :=
  match scanQuoted mark [] rest with
  | none => .error (mark :: rest)
  | some (read, left) => .ok (String.ofList (unescape escape? read.reverse), left)

/-- A value, from after the equals sign.  A comment needs a blank in front of it, and that may be
the one after the equals sign. -/
def scanValue (chars : List Char) : Step String :=
  match chars.dropWhile isInlineBlank with
  | '\'' :: rest => scanQuotedValue '\'' singleEscape? rest
  | '"' :: rest => scanQuotedValue '"' doubleEscape? rest
  | _ =>
    let line := chars.takeWhile (· ≠ '\n')
    let value := (beforeComment line).dropWhile isInlineBlank
    .ok (String.ofList (dropTrailingBlanks value), chars.drop line.length)

/-- The end of a line, perhaps with a comment before it. -/
def scanEnd (chars : List Char) : Except (List Char) (List Char) :=
  match chars.dropWhile isInlineBlank with
  | [] => .ok []
  | '\n' :: rest => .ok rest
  | '#' :: rest => .ok (nextLine rest)
  | _ => .error chars

/-- A name and the value that it is bound to, if there is one. -/
abbrev Binding := String × Option String

/-- A binding, if the line is more than a comment. -/
def scanBinding (chars : List Char) : Except (List Char) (Option Binding × List Char) := do
  let (name, rest) ← scanName (dropExport chars)
  match rest.dropWhile isInlineBlank with
  | '=' :: rest =>
    let (value, rest) ← scanValue rest
    let rest ← scanEnd rest
    pure (name.map fun name => (name, some value), rest)
  | rest =>
    let rest ← scanEnd rest
    pure (name.map fun name => (name, none), rest)

/-- The bindings of a text that does not begin with a blank. -/
def scanBindings (chars : List Char) : List Binding :=
  if chars.isEmpty then []
  else
    let (found, left) := match scanBinding chars with
      | .ok (found, left) => (found.toList, dropBlanks left)
      | .error left => ([], dropBlanks (nextLine left))
    if left.length < chars.length then found ++ scanBindings left else found
termination_by chars.length

/-- What a name stands for: what it is bound to, nothing if it has no value, or else the default. -/
def meaning (bindings : List Binding) (name fallback : List Char) : List Char :=
  match bindings.lookup (String.ofList name) with
  | some (some value) => value.toList
  | some none => []
  | none => fallback

/-- A reference after its opening brace: the name, the default and what is left. -/
def scanReference? (chars : List Char) : Option (List Char × List Char × List Char) :=
  let name := chars.takeWhile fun c => c ≠ '}' && c ≠ ':'
  match chars.drop name.length with
  | '}' :: rest => some (name, [], rest)
  | ':' :: '-' :: more =>
    let fallback := more.takeWhile (· ≠ '}')
    match more.drop fallback.length with
    | _ :: rest => some (name, fallback, rest)
    | [] => none
  | _ => none

/-- A value with its references resolved; each step of `fuel` takes at least one character. -/
def expandWithin (bindings : List Binding) : (fuel : Nat) → List Char → List Char
  | 0, chars => chars
  | _, [] => []
  | fuel + 1, '$' :: '{' :: chars =>
    match scanReference? chars with
    | some (name, fallback, rest) =>
      meaning bindings name fallback ++ expandWithin bindings fuel rest
    | none => '$' :: expandWithin bindings fuel ('{' :: chars)
  | fuel + 1, c :: chars => c :: expandWithin bindings fuel chars

def expand (bindings : List Binding) (value : String) : String :=
  String.ofList (expandWithin bindings value.length value.toList)

/-- The bindings with the references in their values resolved, one after the other. -/
def resolve (environment : List Binding) (done : List Binding) : List Binding → List Binding
  | [] => done
  | (name, value) :: rest =>
    resolve environment
      (putEntry done name (value.map (expand (done ++ environment)))) rest

/-- The characters without the mark that a text may begin with to show how it is encoded. -/
def dropByteOrderMark : List Char → List Char
  | c :: rest => if c.toNat = 0xFEFF then rest else c :: rest
  | [] => []

def read (environment : List (String × String)) (text : String) : List Binding :=
  resolve (environment.map fun (name, value) => (name, some value)) []
    (scanBindings (dropBlanks (dropByteOrderMark text.toList)))

end TypeAtlas.EnvFile
