import TypeAtlas.Json.Value
import TypeAtlas.Text.Quoted

/-!
# Writing JSON

Two layouts of one grammar.  `indented` puts each item and field on a line of its own, two spaces
deeper than what holds it, with one space after the colon; `compact` puts nothing between the
tokens. Empty arrays and objects are closed at once in both.  Inside a text only the quote, the
backslash and the characters below the space are escaped, so that a written document never holds a
line end that belongs to a text.
-/

namespace TypeAtlas.Json

/-- A character as it stands inside a text of a document. -/
def escapeChar (c : Char) : List Char :=
  if c = '"' then ['\\', '"']
  else if c = '\\' then ['\\', '\\']
  else if c = '\n' then ['\\', 'n']
  else if c = '\r' then ['\\', 'r']
  else if c = '\t' then ['\\', 't']
  else if c.toNat = 0x08 then ['\\', 'b']
  else if c.toNat = 0x0C then ['\\', 'f']
  else if c.toNat < 0x20 then '\\' :: 'u' :: Text.hexDigits 4 c.toNat
  else [c]

def printString (text : String) : List Char :=
  '"' :: (text.toList.flatMap escapeChar ++ ['"'])

def printInt : Int → List Char
  | .ofNat n => Nat.toDigits 10 n
  | .negSucc n => '-' :: Nat.toDigits 10 (n + 1)

def printNumber : JsonNumber → List Char
  | .int value => printInt value
  | .decimal value =>
    (if value.negative then ['-'] else []) ++ Nat.toDigits 10 value.digits ++ '.' :: '0' :: 'e' ::
      printInt value.exponent
  | .nan => "NaN".toList
  | .infinite negative => (if negative then ['-'] else []) ++ "Infinity".toList

def newLine (depth : Nat) : List Char :=
  '\n' :: List.replicate (2 * depth) ' '

mutual

/-- A value with each part on a line of its own, at a depth. -/
def indentedAt (depth : Nat) : Json → List Char
  | .null => "null".toList
  | .bool true => "true".toList
  | .bool false => "false".toList
  | .num value => printNumber value
  | .str value => printString value
  | .arr [] => ['[', ']']
  | .arr (item :: items) =>
    '[' :: (newLine (depth + 1) ++ indentedAt (depth + 1) item ++ indentedItems depth items)
  | .obj [] => ['{', '}']
  | .obj (field :: fields) =>
    '{' :: (newLine (depth + 1) ++ indentedField depth field ++ indentedFields depth fields)

/-- The items after the first, and the bracket that closes them. -/
def indentedItems (depth : Nat) : List Json → List Char
  | [] => newLine depth ++ [']']
  | item :: items =>
    ',' :: (newLine (depth + 1) ++ indentedAt (depth + 1) item ++ indentedItems depth items)

/-- The fields after the first, and the brace that closes them. -/
def indentedFields (depth : Nat) : List (String × Json) → List Char
  | [] => newLine depth ++ ['}']
  | field :: fields =>
    ',' :: (newLine (depth + 1) ++ indentedField depth field ++ indentedFields depth fields)

def indentedField (depth : Nat) : String × Json → List Char
  | (key, value) => printString key ++ ':' :: ' ' :: indentedAt (depth + 1) value

end

def indented (value : Json) : String :=
  String.ofList (indentedAt 0 value)

mutual

def compactChars : Json → List Char
  | .null => "null".toList
  | .bool true => "true".toList
  | .bool false => "false".toList
  | .num value => printNumber value
  | .str value => printString value
  | .arr [] => ['[', ']']
  | .arr (item :: items) => '[' :: (compactChars item ++ compactItems items)
  | .obj [] => ['{', '}']
  | .obj (field :: fields) => '{' :: (compactField field ++ compactFields fields)

/-- The items after the first, and the bracket that closes them. -/
def compactItems : List Json → List Char
  | [] => [']']
  | item :: items => ',' :: (compactChars item ++ compactItems items)

/-- The fields after the first, and the brace that closes them. -/
def compactFields : List (String × Json) → List Char
  | [] => ['}']
  | field :: fields => ',' :: (compactField field ++ compactFields fields)

def compactField : String × Json → List Char
  | (key, value) => printString key ++ ':' :: compactChars value

end

def compact (value : Json) : String :=
  String.ofList (compactChars value)

end TypeAtlas.Json
