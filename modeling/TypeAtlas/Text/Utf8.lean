/-!
# UTF-8, with its ill-formed parts kept apart

`Utf8.pieces` splits any list of octets into characters and *maximal ill-formed parts*: a lead octet
together with the continuation octets that could still have followed it, or one octet that starts
nothing.  The two readings of a text are views of this one split: `decodeLossy` writes one
replacement character for each ill-formed part, `decode?` refuses a text that has any.

`encode` is the other direction: the octets of a text, character by character.
-/

namespace TypeAtlas.Utf8

/-- A part of a text in octets: a character, or a maximal run of octets that is no character. -/
inductive Piece where
  | char (c : Char)
  | illFormed (octets : List UInt8)
  deriving Repr, DecidableEq

def charSize (c : Char) : Nat :=
  if c.toNat < 0x80 then 1
  else if c.toNat < 0x800 then 2
  else if c.toNat < 0x10000 then 3
  else 4

def Piece.size : Piece → Nat
  | .char c => charSize c
  | .illFormed octets => octets.length

/-- The octets of a character: seven bits alone, or a lead octet and six bits in each that follows.
-/
def encodeChar (c : Char) : List UInt8 :=
  let code := c.toNat
  if code < 0x80 then [code.toUInt8]
  else if code < 0x800 then
    [(0xC0 + code / 0x40).toUInt8, (0x80 + code % 0x40).toUInt8]
  else if code < 0x10000 then
    [(0xE0 + code / 0x1000).toUInt8, (0x80 + code / 0x40 % 0x40).toUInt8,
      (0x80 + code % 0x40).toUInt8]
  else
    [(0xF0 + code / 0x40000).toUInt8, (0x80 + code / 0x1000 % 0x40).toUInt8,
      (0x80 + code / 0x40 % 0x40).toUInt8, (0x80 + code % 0x40).toUInt8]

def encodeChars (chars : List Char) : List UInt8 :=
  chars.flatMap encodeChar

def encode (text : String) : List UInt8 :=
  encodeChars text.toList

def isTail (octet : UInt8) : Bool :=
  0x80 ≤ octet && octet ≤ 0xBF

/-- What a lead octet announces: nothing, or how many octets follow it and the range of the first of
them.  The range is narrower than `isTail` where a wider one would admit a second spelling of a
character, a surrogate, or a code above the last. -/
inductive Lead where
  | alone
  | none
  | follow (count : Nat) (low high : UInt8)

def lead (octet : UInt8) : Lead :=
  if octet < 0x80 then .alone
  else if octet < 0xC2 then .none
  else if octet < 0xE0 then .follow 1 0x80 0xBF
  else if octet == 0xE0 then .follow 2 0xA0 0xBF
  else if octet == 0xED then .follow 2 0x80 0x9F
  else if octet < 0xF0 then .follow 2 0x80 0xBF
  else if octet == 0xF0 then .follow 3 0x90 0xBF
  else if octet < 0xF4 then .follow 3 0x80 0xBF
  else if octet == 0xF4 then .follow 3 0x80 0x8F
  else .none

private def low6 (octet : UInt8) : Nat := octet.toNat % 0x40

/-- The characters and the maximal ill-formed parts of a list of octets, in order. -/
def pieces : List UInt8 → List Piece
  | [] => []
  | first :: rest =>
    match lead first with
    | .alone => .char (Char.ofNat first.toNat) :: pieces rest
    | .none => .illFormed [first] :: pieces rest
    | .follow count low high =>
      match rest with
      | [] => [.illFormed [first]]
      | second :: rest₂ =>
        if low ≤ second && second ≤ high then
          if count = 1 then
            .char (Char.ofNat (first.toNat % 0x20 * 0x40 + low6 second)) :: pieces rest₂
          else
            match rest₂ with
            | [] => [.illFormed [first, second]]
            | third :: rest₃ =>
              if isTail third then
                if count = 2 then
                  .char (Char.ofNat
                    (first.toNat % 0x10 * 0x1000 + low6 second * 0x40 + low6 third)) ::
                      pieces rest₃
                else
                  match rest₃ with
                  | [] => [.illFormed [first, second, third]]
                  | fourth :: rest₄ =>
                    if isTail fourth then
                      .char (Char.ofNat
                        (first.toNat % 0x08 * 0x40000 + low6 second * 0x1000 +
                          low6 third * 0x40 + low6 fourth)) :: pieces rest₄
                    else .illFormed [first, second, third] :: pieces (fourth :: rest₄)
              else .illFormed [first, second] :: pieces (third :: rest₃)
        else .illFormed [first] :: pieces (second :: rest₂)

/-- The character that stands for a part that is no character. -/
def replacement : Char := Char.ofNat 0xFFFD

/-- A piece as a character of a lossy reading. -/
def Piece.toChar : Piece → Char
  | .char c => c
  | .illFormed _ => replacement

/-- The reading of octets that never fails: one replacement character for each ill-formed part. -/
def decodeLossy (octets : List UInt8) : String :=
  String.ofList ((pieces octets).map Piece.toChar)

/-- The characters of the pieces, if all of them are characters. -/
def charsOf? : List Piece → Option (List Char)
  | [] => some []
  | .char c :: rest => (charsOf? rest).map (c :: ·)
  | .illFormed _ :: _ => none

def decode? (octets : List UInt8) : Option String :=
  (charsOf? (pieces octets)).map String.ofList

end TypeAtlas.Utf8
