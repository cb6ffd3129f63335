import TypeAtlas.Text.Quoted
import TypeAtlas.Text.Utf8

/-!
# What is wrong with octets that are no text

The first ill-formed part of a text in UTF-8 decides what is said: where it is, how long it is, and
whether it starts nothing, is broken off by an octet that does not continue it, or by the end.
-/

namespace TypeAtlas.Utf8

/-- The first ill-formed part of a text: its position, its octets, and whether the text ends with
it. -/
structure IllFormed where
  position : Nat
  octets : List UInt8
  atEnd : Bool
  deriving Repr, DecidableEq

/-- The first ill-formed part among pieces, the first of which is at the given position. -/
def firstIllFormed? (position : Nat) : List Piece → Option IllFormed
  | [] => none
  | .char c :: rest => firstIllFormed? (position + charSize c) rest
  | .illFormed octets :: rest => some ⟨position, octets, rest.isEmpty⟩

namespace IllFormed

def startsCharacter (octet : UInt8) : Bool :=
  match lead octet with
  | .none => false
  | _ => true

def reason (part : IllFormed) : String :=
  if !part.octets.any startsCharacter then "invalid start byte"
  else if part.atEnd then "unexpected end of data"
  else "invalid continuation byte"

def message (part : IllFormed) : String :=
  let subject := match part.octets with
    | [octet] => "byte 0x" ++ String.ofList (Text.hexDigits 2 octet.toNat) ++ " in position " ++
        toString part.position
    | octets => "bytes in position " ++ toString part.position ++ "-" ++
        toString (part.position + octets.length - 1)
  "'utf-8' codec can't decode " ++ subject ++ ": " ++ part.reason

end IllFormed

/-- What is wrong with octets that are no text; nothing if they are. -/
def faultMessage (octets : List UInt8) : String :=
  match firstIllFormed? 0 (pieces octets) with
  | none => ""
  | some part => part.message

end TypeAtlas.Utf8
