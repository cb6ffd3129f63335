import TypeAtlas.Text.Utf8

/-!
# What can be wrong with a JSON text, and where

A fault is a reason and the number of octets before it.  `Fault.place` turns the octets into a line
and a column; a fault at the newline itself belongs to column zero of the next line.
-/

namespace TypeAtlas.Json

/-- Why a text is not JSON. -/
inductive Reason where
  | endInValue | endInArray | endInObject | endInString
  | valueExpected | keyExpected | colonExpected
  | itemEndExpected | fieldEndExpected
  | wordExpected
  | trailingComma | trailingCharacters
  | badEscape | badNumber | hugeNumber | badUnicode
  | loneSurrogate | brokenSurrogatePair
  | controlCharacter
  | tooDeep
  deriving Repr, DecidableEq

def Reason.message : Reason → String
  | .endInValue => "EOF while parsing a value"
  | .endInArray => "EOF while parsing a list"
  | .endInObject => "EOF while parsing an object"
  | .endInString => "EOF while parsing a string"
  | .valueExpected => "expected value"
  | .keyExpected => "key must be a string"
  | .colonExpected => "expected `:`"
  | .itemEndExpected => "expected `,` or `]`"
  | .fieldEndExpected => "expected `,` or `\x7d`"
  | .wordExpected => "expected ident"
  | .trailingComma => "trailing comma"
  | .trailingCharacters => "trailing characters"
  | .badEscape => "invalid escape"
  | .badNumber => "invalid number"
  | .hugeNumber => "number out of range"
  | .badUnicode => "invalid unicode code point"
  | .loneSurrogate => "lone leading surrogate in hex escape"
  | .brokenSurrogatePair => "unexpected end of hex escape"
  | .controlCharacter => "control character (\\u0000-\\u001F) found while parsing a string"
  | .tooDeep => "recursion limit exceeded"

/-- A reason and the number of octets of the text before it. -/
structure Fault where
  reason : Reason
  offset : Nat
  deriving Repr, DecidableEq

def octetCount : List Utf8.Piece → Nat
  | [] => 0
  | piece :: rest => piece.size + octetCount rest

/-- The line, counted from one, and the column of the octet that has `offset` octets before it.  The
column counts the octets of the line up to and including that octet; at the end of the text it
counts the octets of the last line.  `line` and `column` describe the text read so far. -/
def placeFrom (line column offset : Nat) : List Utf8.Piece → Nat × Nat
  | [] => (line, column)
  | piece :: rest =>
    if piece = .char '\n' then
      if offset = 0 then (line + 1, 0) else placeFrom (line + 1) 0 (offset - 1) rest
    else if offset < piece.size then (line, column + offset + 1)
    else placeFrom line (column + piece.size) (offset - piece.size) rest

def Fault.place (pieces : List Utf8.Piece) (fault : Fault) : Nat × Nat :=
  placeFrom 1 0 fault.offset pieces

/-- A fault in words, with its place. -/
def Fault.describe (pieces : List Utf8.Piece) (fault : Fault) : String :=
  let (line, column) := fault.place pieces
  fault.reason.message ++ " at line " ++ toString line ++ " column " ++ toString column

end TypeAtlas.Json
