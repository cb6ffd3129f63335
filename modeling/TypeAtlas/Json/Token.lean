import TypeAtlas.Json.Fault
import TypeAtlas.Json.Value

/-!
# The tokens of a JSON text

`tokens` cuts a text into brackets, marks, texts and scalars, each with the number of octets before
it.  A place where no token can be cut is a token too: `brokenText` and `brokenScalar` with the
fault when something goes wrong inside, `junk` when nothing can start there.  Whether and how such a
token is reported is decided where it is met, because a fault further on never hides one before it.
A text is read strictly or generously (`Strictness`).

Each scan returns what it leaves unread, and a lemma says that this is never longer than what it was
given; that is why `tokens` ends.
-/

namespace TypeAtlas.Json

open Utf8 (Piece)

/-- A token of a JSON text. -/
inductive Token where
  | openArray | closeArray | openObject | closeObject | colon | comma
  | text (value : String)
  | scalar (value : Json)
  | brokenText (fault : Fault)
  | brokenScalar (fault : Fault)
  | junk
  deriving Repr

/-- How strictly a text is read. -/
inductive Strictness where
  /-- Characters are whole, nesting has a limit, and so have the digits in front of a fraction. -/
  | strict
  /-- Half a surrogate pair reads as the replacement character, nesting has no limit, and only the
  digits of whole numbers have one. -/
  | generous
  deriving Repr, DecidableEq

/-- A token, and the rest of the text with the number of octets before it. -/
structure Scan where
  token : Token
  offset : Nat
  rest : List Piece

/-! ## Texts -/

def hexValue? (piece : Piece) : Option Nat :=
  match piece with
  | .illFormed _ => none
  | .char c =>
    let code := c.toNat
    if 48 ≤ code && code ≤ 57 then some (code - 48)
    else if 97 ≤ code && code ≤ 102 then some (code - 87)
    else if 65 ≤ code && code ≤ 70 then some (code - 55)
    else none

def hexQuad? (a b c d : Piece) : Option Nat := do
  return (← hexValue? a) * 0x1000 + (← hexValue? b) * 0x100 + (← hexValue? c) * 0x10 +
    (← hexValue? d)

/-- What is wrong after a `\u` whose letter is at `offset`, when four digits do not follow: the text
ends there, or the first character that is no digit is at fault. -/
def quadFault (offset : Nat) (rest : List Piece) : Fault :=
  let left := octetCount rest
  if left < 4 then ⟨.endInString, offset + 1 + left⟩
  else ⟨.badEscape, offset + 1 + (rest.takeWhile fun piece => (hexValue? piece).isSome).length⟩

/-- What is wrong when the first half of a surrogate pair, whose last digit is at `offset`, is not
followed by an escape. -/
def halfFault (offset : Nat) (rest : List Piece) : Fault :=
  let left := octetCount rest
  match rest with
  | [] => ⟨.endInString, offset + 1⟩
  | .char '\\' :: _ => if left < 2 then ⟨.endInString, offset + 1 + left⟩
    else ⟨.brokenSurrogatePair, offset + 2⟩
  | _ :: _ => ⟨.brokenSurrogatePair, offset + 1⟩

/-- The character that one letter after a backslash stands for. -/
def shortEscape? : Char → Option Char
  | '"' => some '"'
  | '\\' => some '\\'
  | '/' => some '/'
  | 'b' => some (Char.ofNat 0x08)
  | 'f' => some (Char.ofNat 0x0C)
  | 'n' => some '\n'
  | 'r' => some '\r'
  | 't' => some '\t'
  | _ => none

/-- The text that was read, unless a part of it is no character; `start` is where it began. -/
def closeText (start : Nat) (read : List Piece) : Token :=
  let inOrder := read.reverse
  match Utf8.charsOf? inOrder with
  | some chars => .text (String.ofList chars)
  | none =>
    let sound := inOrder.takeWhile fun piece => match piece with
      | .char _ => true
      | .illFormed _ => false
    .brokenText ⟨.badUnicode, start + octetCount sound⟩

def replacement : Piece := .char (Char.ofNat 0xFFFD)

def startsWithSecondHalf : List Piece → Bool
  | .char '\\' :: .char 'u' :: a :: b :: c :: d :: _ =>
    (hexQuad? a b c d).any fun code => 0xDC00 ≤ code && code ≤ 0xDFFF
  | _ => false

/-- Reads a text up to its closing quote.  `start` is where its first character is, `offset` where
the rest is, and `read` holds the characters so far, the last one first. -/
def scanText (strictness : Strictness) (start : Nat) :
    (offset : Nat) → (read : List Piece) → List Piece → Scan
  | offset, _, [] => ⟨.brokenText ⟨.endInString, offset⟩, offset, []⟩
  | offset, read, .char '"' :: rest => ⟨closeText start read, offset + 1, rest⟩
  | offset, read, .char '\\' :: rest =>
    match rest with
    | [] => ⟨.brokenText ⟨.endInString, offset + 1⟩, offset + 1, []⟩
    | .char 'u' :: rest₁ =>
      match rest₁ with
      | a :: b :: c :: d :: rest₂ =>
        match hexQuad? a b c d with
        | none => ⟨.brokenText (quadFault (offset + 1) rest₁), offset, rest₁⟩
        | some code =>
          if 0xD800 ≤ code && code ≤ 0xDFFF && strictness = .generous &&
              !(code ≤ 0xDBFF && startsWithSecondHalf rest₂) then
            scanText strictness start (offset + 6) (replacement :: read) rest₂
          else if 0xDC00 ≤ code && code ≤ 0xDFFF then
            ⟨.brokenText ⟨.loneSurrogate, offset + 5⟩, offset, rest₂⟩
          else if 0xD800 ≤ code && code ≤ 0xDBFF then
            match rest₂ with
            | .char '\\' :: .char 'u' :: rest₃ =>
              match rest₃ with
              | a' :: b' :: c' :: d' :: rest₄ =>
                match hexQuad? a' b' c' d' with
                | none => ⟨.brokenText (quadFault (offset + 7) rest₃), offset, rest₃⟩
                | some second =>
                  if 0xDC00 ≤ second && second ≤ 0xDFFF then
                    let full := (code - 0xD800) * 0x400 + (second - 0xDC00) + 0x10000
                    scanText strictness start (offset + 12) (.char (Char.ofNat full) :: read) rest₄
                  else ⟨.brokenText ⟨.loneSurrogate, offset + 11⟩, offset, rest₄⟩
              | _ => ⟨.brokenText (quadFault (offset + 7) rest₃), offset, rest₃⟩
            | _ => ⟨.brokenText (halfFault (offset + 5) rest₂), offset, rest₂⟩
          else scanText strictness start (offset + 6) (.char (Char.ofNat code) :: read) rest₂
      | _ => ⟨.brokenText (quadFault (offset + 1) rest₁), offset, rest₁⟩
    | .char c :: rest₁ =>
      match shortEscape? c with
      | some plain => scanText strictness start (offset + 2) (.char plain :: read) rest₁
      | none => ⟨.brokenText ⟨.badEscape, offset + 1⟩, offset, rest₁⟩
    | .illFormed _ :: rest₁ => ⟨.brokenText ⟨.badEscape, offset + 1⟩, offset, rest₁⟩
  | offset, read, piece :: rest =>
    match piece with
    | .char c =>
      if c.toNat < 0x20 then ⟨.brokenText ⟨.controlCharacter, offset⟩, offset, rest⟩
      else scanText strictness start (offset + piece.size) (piece :: read) rest
    | .illFormed _ => scanText strictness start (offset + piece.size) (piece :: read) rest

theorem scanText_rest_le (strictness : Strictness) (start offset : Nat) (read pieces : List Piece) :
    (scanText strictness start offset read pieces).rest.length ≤ pieces.length := by
  fun_induction scanText strictness start offset read pieces <;> simp_all <;> omega

/-! ## Words and numbers -/

/-- Compares the text after the first letter of a word with the rest of that word. -/
def scanWord (value : Json) : (offset : Nat) → List Char → List Piece → Scan
  | offset, [], rest => ⟨.scalar value, offset, rest⟩
  | offset, _ :: _, [] => ⟨.brokenScalar ⟨.endInValue, offset⟩, offset, []⟩
  | offset, c :: word, piece :: rest =>
    if piece = .char c then scanWord value (offset + 1) word rest
    else ⟨.brokenScalar ⟨.wordExpected, offset⟩, offset, rest⟩

theorem scanWord_rest_le (value : Json) (offset : Nat) (word : List Char) (pieces : List Piece) :
    (scanWord value offset word pieces).rest.length ≤ pieces.length := by
  fun_induction scanWord value offset word pieces with
  | case1 => exact Nat.le_refl _
  | case2 => exact Nat.le_refl _
  | case3 offset c word rest ih => exact Nat.le_succ_of_le ih
  | case4 offset c word piece rest => exact Nat.le_succ _

def digitValue? (piece : Piece) : Option Nat :=
  match piece with
  | .illFormed _ => none
  | .char c => if 48 ≤ c.toNat && c.toNat ≤ 57 then some (c.toNat - 48) else none

/-- A run of decimal digits: the number they write, how many they are, and what follows them. -/
structure Digits where
  value : Nat
  count : Nat
  rest : List Piece

/-- Reads on through decimal digits, after `count` digits that write `value`. -/
def scanDigits : (value count : Nat) → List Piece → Digits
  | value, count, [] => ⟨value, count, []⟩
  | value, count, piece :: rest =>
    match digitValue? piece with
    | some digit => scanDigits (value * 10 + digit) (count + 1) rest
    | none => ⟨value, count, piece :: rest⟩

theorem scanDigits_rest_le (value count : Nat) (pieces : List Piece) :
    (scanDigits value count pieces).rest.length ≤ pieces.length := by
  fun_induction scanDigits value count pieces with
  | case1 => exact Nat.le_refl _
  | case2 value count piece rest digit hdigit ih => exact Nat.le_succ_of_le ih
  | case3 => exact Nat.le_refl _

def digitFault (offset : Nat) (rest : List Piece) : Token :=
  .brokenScalar ⟨if rest.isEmpty then .endInValue else .badNumber, offset⟩

/-- Reads the digits of an exponent; `digits` and `places` are what came before it. -/
def scanPower (negative down : Bool) (digits places offset : Nat) (pieces : List Piece) : Scan :=
  let power := scanDigits 0 0 pieces
  if power.count = 0 then ⟨digitFault offset power.rest, offset, power.rest⟩
  else
    let exponent : Int := (if down then -(power.value : Int) else power.value) - places
    ⟨.scalar (.num (.decimal ⟨negative, digits, exponent⟩)), offset + power.count, power.rest⟩

theorem scanPower_rest_le (negative down : Bool) (digits places offset : Nat)
    (pieces : List Piece) :
    (scanPower negative down digits places offset pieces).rest.length ≤ pieces.length := by
  have := scanDigits_rest_le 0 0 pieces
  unfold scanPower
  dsimp only
  split <;> exact this

def scanExponent (negative : Bool) (digits places offset : Nat) (pieces : List Piece) : Scan :=
  match pieces with
  | .char '-' :: rest => scanPower negative true digits places (offset + 1) rest
  | .char '+' :: rest => scanPower negative false digits places (offset + 1) rest
  | _ => scanPower negative false digits places offset pieces

theorem scanExponent_rest_le (negative : Bool) (digits places offset : Nat)
    (pieces : List Piece) :
    (scanExponent negative digits places offset pieces).rest.length ≤ pieces.length := by
  unfold scanExponent
  split
  · exact Nat.le_succ_of_le (scanPower_rest_le ..)
  · exact Nat.le_succ_of_le (scanPower_rest_le ..)
  · exact scanPower_rest_le ..

/-- Reads the exponent of a number with a fraction, if it has one. -/
def scanAfterFraction (negative : Bool) (digits places offset : Nat) (pieces : List Piece) : Scan :=
  match pieces with
  | .char 'e' :: rest => scanExponent negative digits places (offset + 1) rest
  | .char 'E' :: rest => scanExponent negative digits places (offset + 1) rest
  | _ => ⟨.scalar (.num (.decimal ⟨negative, digits, -(places : Int)⟩)), offset, pieces⟩

theorem scanAfterFraction_rest_le (negative : Bool) (digits places offset : Nat)
    (pieces : List Piece) :
    (scanAfterFraction negative digits places offset pieces).rest.length ≤ pieces.length := by
  unfold scanAfterFraction
  split
  · exact Nat.le_succ_of_le (scanExponent_rest_le ..)
  · exact Nat.le_succ_of_le (scanExponent_rest_le ..)
  · exact Nat.le_refl _

def scanFraction (negative : Bool) (digits offset : Nat) (pieces : List Piece) : Scan :=
  match pieces with
  | .char '.' :: rest =>
    let fraction := scanDigits digits 0 rest
    if fraction.count = 0 then ⟨digitFault (offset + 1) fraction.rest, offset + 1, fraction.rest⟩
    else
      scanAfterFraction negative fraction.value fraction.count (offset + 1 + fraction.count)
        fraction.rest
  | .char 'e' :: rest => scanExponent negative digits 0 (offset + 1) rest
  | .char 'E' :: rest => scanExponent negative digits 0 (offset + 1) rest
  | _ =>
    let value : Int := if negative then -(digits : Int) else digits
    ⟨.scalar (.num (.int value)), offset, pieces⟩

theorem scanFraction_rest_le (negative : Bool) (digits offset : Nat) (pieces : List Piece) :
    (scanFraction negative digits offset pieces).rest.length ≤ pieces.length := by
  unfold scanFraction
  split
  · rename_i rest
    have hdigits := Nat.le_succ_of_le (scanDigits_rest_le digits 0 rest)
    dsimp only
    split
    · exact hdigits
    · exact Nat.le_trans (scanAfterFraction_rest_le ..) hdigits
  · exact Nat.le_succ_of_le (scanExponent_rest_le ..)
  · exact Nat.le_succ_of_le (scanExponent_rest_le ..)
  · exact Nat.le_refl _

/-- How many digits a number may have before its fraction. -/
def wholeDigitLimit : Nat := 4300

/-- Whether a number has too many digits before its fraction; `rest` is what follows them. -/
def tooManyDigits (strictness : Strictness) (count : Nat) (rest : List Piece) : Bool :=
  wholeDigitLimit < count && match strictness with
    | .strict => true
    | .generous => !(rest.head?.any fun piece =>
        piece = .char '.' || piece = .char 'e' || piece = .char 'E')

/-- Reads a number from its first digit, which is at `offset`.  A zero in front of another digit is
no number, and a number with too many digits is at fault behind the first digit too many. -/
def scanMagnitude (strictness : Strictness) (negative : Bool) (offset : Nat)
    (pieces : List Piece) : Scan :=
  match pieces with
  | [] => ⟨.brokenScalar ⟨.endInValue, offset⟩, offset, []⟩
  | .char '0' :: rest =>
    if (rest.head?.bind digitValue?).isSome then
      ⟨.brokenScalar ⟨.badNumber, offset + 1⟩, offset, rest⟩
    else scanFraction negative 0 (offset + 1) rest
  | piece :: rest =>
    match digitValue? piece with
    | none =>
      if piece = .char 'I' then
        scanWord (.num (.infinite negative)) (offset + 1) "nfinity".toList rest
      else ⟨.brokenScalar ⟨.badNumber, offset⟩, offset, rest⟩
    | some digit =>
      let whole := scanDigits digit 1 rest
      if tooManyDigits strictness whole.count whole.rest then
        ⟨.brokenScalar ⟨.hugeNumber, offset + wholeDigitLimit + 1⟩, offset, whole.rest⟩
      else scanFraction negative whole.value (offset + whole.count) whole.rest

theorem scanMagnitude_rest_le (strictness : Strictness) (negative : Bool) (offset : Nat)
    (pieces : List Piece) :
    (scanMagnitude strictness negative offset pieces).rest.length ≤ pieces.tail.length := by
  unfold scanMagnitude
  split
  · exact Nat.le_refl _
  · split
    · exact Nat.le_refl _
    · exact scanFraction_rest_le ..
  · split
    · split
      · exact scanWord_rest_le ..
      · exact Nat.le_refl _
    · dsimp only
      split
      · exact scanDigits_rest_le ..
      · exact Nat.le_trans (scanFraction_rest_le ..) (scanDigits_rest_le ..)

/-! ## The whole text -/

def isSpace (piece : Piece) : Bool :=
  piece = .char ' ' || piece = .char '\n' || piece = .char '\t' || piece = .char '\r'

/-- Reads the token that starts with a piece, which is at `offset`. -/
def scanToken (strictness : Strictness) (offset : Nat) (first : Piece) (rest : List Piece) : Scan :=
  match first with
  | .char '[' => ⟨.openArray, offset + 1, rest⟩
  | .char ']' => ⟨.closeArray, offset + 1, rest⟩
  | .char '\x7b' => ⟨.openObject, offset + 1, rest⟩
  | .char '\x7d' => ⟨.closeObject, offset + 1, rest⟩
  | .char ':' => ⟨.colon, offset + 1, rest⟩
  | .char ',' => ⟨.comma, offset + 1, rest⟩
  | .char '"' => scanText strictness (offset + 1) (offset + 1) [] rest
  | .char 't' => scanWord (.bool true) (offset + 1) "rue".toList rest
  | .char 'f' => scanWord (.bool false) (offset + 1) "alse".toList rest
  | .char 'n' => scanWord .null (offset + 1) "ull".toList rest
  | .char 'N' => scanWord (.num .nan) (offset + 1) "aN".toList rest
  | .char 'I' => scanWord (.num (.infinite false)) (offset + 1) "nfinity".toList rest
  | .char '-' => scanMagnitude strictness true (offset + 1) rest
  | _ =>
    if (digitValue? first).isSome then scanMagnitude strictness false offset (first :: rest)
    else ⟨.junk, offset + first.size, rest⟩

theorem scanToken_rest_le (strictness : Strictness) (offset : Nat) (first : Piece)
    (rest : List Piece) :
    (scanToken strictness offset first rest).rest.length ≤ rest.length := by
  unfold scanToken
  split
  case h_7 => exact scanText_rest_le ..
  case h_13 =>
    refine Nat.le_trans (scanMagnitude_rest_le ..) ?_
    simp
  case h_14 =>
    split
    · exact scanMagnitude_rest_le ..
    · exact Nat.le_refl _
  all_goals first
    | exact Nat.le_refl _
    | exact scanWord_rest_le ..

/-- The tokens of a text with the number of octets before each; `offset` is the number of octets
before the text. -/
def tokensFrom (strictness : Strictness) (offset : Nat) (pieces : List Piece) :
    List (Nat × Token) :=
  match pieces with
  | [] => []
  | first :: rest =>
    if isSpace first then tokensFrom strictness (offset + 1) rest
    else
      let scan := scanToken strictness offset first rest
      (offset, scan.token) :: tokensFrom strictness scan.offset scan.rest
termination_by pieces.length
decreasing_by
  · simp
  · have := scanToken_rest_le strictness offset first rest
    simp only [List.length_cons]
    omega

end TypeAtlas.Json
