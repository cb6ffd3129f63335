import TypeAtlas.Json.Token

/-!
# Reading JSON

A document is read by a stack machine that takes one token at a time.  The stack holds the arrays
and objects that are still open, the innermost first; `Awaiting` says what may come next.  A token
that may not come is a fault at its own place, and a text that ends too early is a fault at its end,
so the first fault of a document is the one that is reported.
-/

namespace TypeAtlas.Json

open Utf8 (Piece)

/-- An array or object that is still open, with what it holds so far in reverse; an object also
remembers the key whose value is being read. -/
inductive Frame where
  | array (items : List Json)
  | object (fields : List (String × Json)) (key : String)
  deriving Repr

/-- What may come next. -/
inductive Awaiting where
  | value
  | itemOrEnd
  | item
  | commaOrArrayEnd
  | keyOrEnd (fields : List (String × Json))
  | key (fields : List (String × Json))
  | colon
  | commaOrObjectEnd (fields : List (String × Json))
  | nothing (document : Json)
  deriving Repr

/-- The open containers, the innermost first, and what may come next. -/
structure Reading where
  stack : List Frame
  awaiting : Awaiting
  deriving Repr

/-- Before the first token. -/
def Reading.start : Reading := ⟨[], .value⟩

/-- How many containers may be open inside one another in a text that is read strictly. -/
def depthLimit : Nat := 200

/-- A complete value goes into the innermost open container, or is the document. -/
def Reading.complete (stack : List Frame) (value : Json) : Reading :=
  match stack with
  | [] => ⟨[], .nothing value⟩
  | .array items :: outer => ⟨.array (value :: items) :: outer, .commaOrArrayEnd⟩
  | .object fields key :: outer => ⟨outer, .commaOrObjectEnd ((key, value) :: fields)⟩

/-- Whether another value may stand inside the open containers. -/
def Strictness.admits (strictness : Strictness) (stack : List Frame) : Bool :=
  match strictness with
  | .strict => stack.length ≤ depthLimit
  | .generous => true

def Reading.startValue (strictness : Strictness) (stack : List Frame) (offset : Nat)
    (token : Token) : Except Fault Reading :=
  if !strictness.admits stack then .error ⟨.tooDeep, offset⟩
  else
    match token with
    | .openArray => .ok ⟨.array [] :: stack, .itemOrEnd⟩
    | .openObject => .ok ⟨stack, .keyOrEnd []⟩
    | .text value => .ok (complete stack (.str value))
    | .scalar value => .ok (complete stack value)
    | .brokenText fault => .error fault
    | .brokenScalar fault => .error fault
    | _ => .error ⟨.valueExpected, offset⟩

def Reading.takeKey (stack : List Frame) (fields : List (String × Json)) (offset : Nat)
    (token : Token) : Except Fault Reading :=
  match token with
  | .text key => .ok ⟨.object fields key :: stack, .colon⟩
  | .brokenText fault => .error fault
  | _ => .error ⟨.keyExpected, offset⟩

/-- The machine after one more token, which is at `offset`. -/
def Reading.step (strictness : Strictness) (reading : Reading) (offset : Nat) (token : Token) :
    Except Fault Reading :=
  match reading.awaiting with
  | .value => startValue strictness reading.stack offset token
  | .itemOrEnd =>
    match token, reading.stack with
    | .closeArray, .array items :: outer => .ok (complete outer (.arr items.reverse))
    | _, _ => startValue strictness reading.stack offset token
  | .item =>
    match token with
    | .closeArray => .error ⟨.trailingComma, offset⟩
    | _ => startValue strictness reading.stack offset token
  | .commaOrArrayEnd =>
    match token, reading.stack with
    | .comma, _ => .ok ⟨reading.stack, .item⟩
    | .closeArray, .array items :: outer => .ok (complete outer (.arr items.reverse))
    | _, _ => .error ⟨.itemEndExpected, offset⟩
  | .keyOrEnd fields =>
    match token with
    | .closeObject => .ok (complete reading.stack (.obj fields.reverse))
    | _ => takeKey reading.stack fields offset token
  | .key fields =>
    match token with
    | .closeObject => .error ⟨.trailingComma, offset⟩
    | _ => takeKey reading.stack fields offset token
  | .colon =>
    match token with
    | .colon => .ok ⟨reading.stack, .value⟩
    | _ => .error ⟨.colonExpected, offset⟩
  | .commaOrObjectEnd fields =>
    match token with
    | .comma => .ok ⟨reading.stack, .key fields⟩
    | .closeObject => .ok (complete reading.stack (.obj fields.reverse))
    | _ => .error ⟨.fieldEndExpected, offset⟩
  | .nothing _ => .error ⟨.trailingCharacters, offset⟩

def Awaiting.endReason : Awaiting → Reason
  | .value => .endInValue
  | .item => .endInValue
  | .itemOrEnd => .endInArray
  | .commaOrArrayEnd => .endInArray
  | .keyOrEnd _ => .endInObject
  | .key _ => .endInValue
  | .colon => .endInObject
  | .commaOrObjectEnd _ => .endInObject
  | .nothing _ => .trailingCharacters

/-- Reads the tokens that are left; `size` is the number of octets of the whole text. -/
def Reading.run (strictness : Strictness) (size : Nat) :
    Reading → List (Nat × Token) → Except Fault Json
  | reading, [] =>
    match reading.awaiting with
    | .nothing document => .ok document
    | awaiting => .error ⟨awaiting.endReason, size⟩
  | reading, (offset, token) :: rest => do
    (← reading.step strictness offset token).run strictness size rest

def read (strictness : Strictness) (pieces : List Piece) : Except Fault Json :=
  Reading.start.run strictness (octetCount pieces) (tokensFrom strictness 0 pieces)

def readText (strictness : Strictness) (text : String) : Except Fault Json :=
  read strictness (text.toList.map .char)

end TypeAtlas.Json
