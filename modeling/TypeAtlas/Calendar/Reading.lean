import TypeAtlas.Calendar.Timestamp
import TypeAtlas.Json.Value
import TypeAtlas.Text.Utf8

/-!
# Reading points in time

A document gives a point in time as a text or as a number.  `Timestamp.ofText?` reads the full form:
a date, one of `T`, `t`, a space or `_`, and a time of day with an optional fraction and zone.
A number counts seconds from the start of 1970, or milliseconds when it is too large to mean
seconds; what it has beyond a whole number always leads forward in time.  A text that is neither a
full form nor a number may still be a date alone, and what is wrong with that date is what is
reported.
-/

namespace TypeAtlas

/-- What is wrong with a date. -/
inductive DateFault where
  | tooShort | badYear | badSeparator | badMonth | badDay | monthRange | dayRange | extraCharacters
  | tooLate | tooEarly
  deriving Repr, DecidableEq

def DateFault.message : DateFault → String
  | .tooShort => "input is too short"
  | .badYear => "invalid character in year"
  | .badSeparator => "invalid date separator, expected `-`"
  | .badMonth => "invalid character in month"
  | .badDay => "invalid character in day"
  | .monthRange => "month value is outside expected range of 1-12"
  | .dayRange => "day value is outside expected range"
  | .extraCharacters => "unexpected extra characters at the end of the input"
  | .tooLate => "dates after 9999 are not supported as unix timestamps"
  | .tooEarly => "dates before 0000 are not supported as unix timestamps"

/-- What is wrong with a value that should be a point in time. -/
inductive TimeFault where
  /-- It is of a kind that is never one. -/
  | notTime
  /-- It is a date, but in the year zero. -/
  | yearZero
  /-- It is not a number. -/
  | notANumber
  /-- As a number it is out of range. -/
  | number (fault : DateFault)
  /-- As a text it is not even a date. -/
  | text (fault : DateFault)
  deriving Repr, DecidableEq

namespace Timestamp

def digit? (c : Char) : Option Nat :=
  if 48 ≤ c.toNat && c.toNat ≤ 57 then some (c.toNat - 48) else none

/-- The number that two decimal digits at the front write, and the rest. -/
def twoDigits? : List Char → Option (Nat × List Char)
  | a :: b :: rest => do return (10 * (← digit? a) + (← digit? b), rest)
  | _ => none

/-- The date at the front of a text, and the rest. -/
def datePart (chars : List Char) : Except DateFault (Nat × Nat × Nat × List Char) :=
  if (Utf8.encodeChars chars).length < 10 then .error .tooShort
  else
    match chars with
    | y₁ :: y₂ :: y₃ :: y₄ :: afterYear =>
      match digit? y₁, digit? y₂, digit? y₃, digit? y₄ with
      | some a, some b, some c, some d =>
        match afterYear with
        | '-' :: monthOn =>
          match twoDigits? monthOn with
          | none => .error .badMonth
          | some (month, '-' :: dayOn) =>
            match twoDigits? dayOn with
            | none => .error .badDay
            | some (day, rest) =>
              let year := 1000 * a + 100 * b + 10 * c + d
              if month < 1 || 12 < month then .error .monthRange
              else if day < 1 || Calendar.daysInMonth year month < day then .error .dayRange
              else .ok (year, month, day, rest)
          | some (_, _) => .error .badSeparator
        | _ => .error .badSeparator
      | _, _, _, _ => .error .badYear
    | _ => .error .badYear

def digitsValue (chars : List Char) : Nat :=
  (chars.filterMap digit?).foldl (fun value digit => 10 * value + digit) 0

/-- The first six digits of a fraction, filled up with zeros, as microseconds. -/
def microseconds (digits : List Char) : Nat :=
  digitsValue ((digits ++ List.replicate 6 '0').take 6)

/-- A fraction of a second with at least one digit, and the rest. -/
def fractionPart? (chars : List Char) : Option (Nat × List Char) :=
  let digits := chars.takeWhile fun c => (digit? c).isSome
  if digits.isEmpty then none
  else some (microseconds digits, chars.drop digits.length)

/-- A time of day in hours and minutes, perhaps with seconds and a fraction, and the rest. -/
def clockPart? (chars : List Char) : Option ((Nat × Nat × Nat × Nat) × List Char) := do
  let (hour, rest) ← twoDigits? chars
  let ':' :: rest := rest | none
  let (minute, rest) ← twoDigits? rest
  match rest with
  | ':' :: rest =>
    let (second, rest) ← twoDigits? rest
    match rest with
    | '.' :: rest | ',' :: rest =>
      let (fraction, rest) ← fractionPart? rest
      return ((hour, minute, second, fraction), rest)
    | _ => return ((hour, minute, second, 0), rest)
  | _ => return ((hour, minute, 0, 0), rest)

/-- The sign of a distance from UTC; the second minus is the typographic one. -/
def signPart? : List Char → Option (Int × List Char)
  | '+' :: rest => some (1, rest)
  | '-' :: rest => some (-1, rest)
  | c :: rest => if c.toNat = 0x2212 then some (-1, rest) else none
  | [] => none

/-- The distance from UTC at the end of a text: nothing, `Z`, or hours and minutes with a sign. -/
def zonePart? (chars : List Char) : Option (Option Int) :=
  match chars with
  | [] => some none
  | ['Z'] => some (some 0)
  | ['z'] => some (some 0)
  | _ => do
    let (sign, rest) ← signPart? chars
    let (hours, rest) ← twoDigits? rest
    let rest := match rest with
      | ':' :: rest => rest
      | _ => rest
    let (minutes, rest) ← twoDigits? rest
    if rest.isEmpty && minutes < 60 && hours < 24 then
      some (some (sign * (3600 * hours + 60 * minutes)))
    else none

/-- The full written form: the parts of a date, a mark, a time of day and a zone. -/
def fullParts? (chars : List Char) :
    Option ((Nat × Nat × Nat) × (Nat × Nat × Nat × Nat) × Option Int) := do
  let (year, month, day, rest) ← (datePart chars).toOption
  let mark :: rest := rest | none
  guard (mark = 'T' || mark = 't' || mark = ' ' || mark = '_')
  let (clock, rest) ← clockPart? rest
  let zone ← zonePart? rest
  guard (clock.1 < 24 && clock.2.1 < 60 && clock.2.2.1 < 60)
  return ((year, month, day), clock, zone)

/-- The point in time with parts that were read from a full form. -/
def ofParts (parts : (Nat × Nat × Nat) × (Nat × Nat × Nat × Nat) × Option Int) :
    Except TimeFault Timestamp :=
  let ((year, month, day), (hour, minute, second, fraction), zone) := parts
  match make? year month day hour minute second fraction zone with
  | some time => .ok time
  | none => .error .yearZero

/-- The greatest number that still counts seconds. -/
def secondsLimit : Nat := 20000000000

/-- The point in time that is some whole seconds after the start of 1970, and some microseconds
more. -/
def ofSeconds (count : Int) (microseconds : Nat) : Except TimeFault Timestamp :=
  let seconds := count + ((microseconds / 1000000 : Nat) : Int)
  if seconds < -62167219200 then .error (.number .tooEarly)
  else if 253402300799 < seconds then .error (.number .tooLate)
  else
    let (year, month, day) := Calendar.dateOfDays (seconds.fdiv 86400)
    let inDay := (seconds.fmod 86400).toNat
    match make? year.toNat month day (inDay / 3600) (inDay / 60 % 60) (inDay % 60)
        (microseconds % 1000000) (some 0) with
    | some time => .ok time
    | none => .error .yearZero

/-- The point in time that is some whole milliseconds after the start of 1970, and some microseconds
more. -/
def ofMilliseconds (count : Int) (microseconds : Nat) : Except TimeFault Timestamp :=
  ofSeconds (count.fdiv 1000) ((count.fmod 1000).toNat * 1000 + microseconds)

/-- The point in time that a whole number counts up to: in seconds, or in milliseconds if it is
beyond `secondsLimit`. -/
def ofCount (count : Int) : Except TimeFault Timestamp :=
  if count.natAbs ≤ secondsLimit then ofSeconds count 0 else ofMilliseconds count 0

/-- The least whole number that a timestamp may be. -/
def leastCount : Int := -9223372036854775808

/-- The greatest whole number that a timestamp may be. -/
def greatestCount : Int := 9223372036854775807

/-- The distance of a number from the whole number below it, in parts of which `parts` make one,
rounded with a half upward; the distance and its multiple are themselves 64-bit numbers. -/
def partsAboveFloor (parts : Nat) (negative : Bool) (mantissa : Nat) (exponent : Int) : Nat :=
  let (numerator, denominator) := Binary64.scaled 2 mantissa exponent
  let beyond := numerator % denominator
  if beyond = 0 then 0
  else
    let above := if negative then denominator - beyond else beyond
    match Binary64.ofFraction false above denominator with
    | .infinite _ => 0
    | .finite _ mantissa exponent =>
      let (numerator, denominator) := Binary64.scaled 2 mantissa exponent
      match Binary64.ofFraction false (numerator * parts) denominator with
      | .infinite _ => 0
      | .finite _ mantissa exponent =>
        let (top, bottom) := Binary64.scaled 2 mantissa exponent
        (2 * top + bottom) / (2 * bottom)

def countsMilliseconds (mantissa : Nat) (exponent : Int) : Bool :=
  let (numerator, denominator) := Binary64.scaled 2 mantissa exponent
  secondsLimit * denominator < numerator

/-- The point in time that a number with a fraction or an exponent stands for. -/
def ofBinary64 : Binary64 → Except TimeFault Timestamp
  | .infinite true => .error (.number .tooEarly)
  | .infinite false => .error (.number .tooLate)
  | .finite negative mantissa exponent =>
    let whole := Binary64.floor negative mantissa exponent
    if countsMilliseconds mantissa exponent then
      ofMilliseconds whole (partsAboveFloor 1000 negative mantissa exponent)
    else ofSeconds whole (partsAboveFloor 1000000 negative mantissa exponent)

/-- The point in time that a number with a point stands for when it is a text of its own:
milliseconds are brought to seconds first, as a 64-bit number. -/
def ofWrittenBinary64 : Binary64 → Except TimeFault Timestamp
  | .infinite negative => ofBinary64 (.infinite negative)
  | .finite negative mantissa exponent =>
    let (numerator, denominator) := Binary64.scaled 2 mantissa exponent
    let seconds := if countsMilliseconds mantissa exponent
      then Binary64.ofFraction negative numerator (denominator * 1000)
      else .finite negative mantissa exponent
    match seconds with
    | .infinite negative => ofBinary64 (.infinite negative)
    | .finite negative mantissa exponent =>
      ofSeconds (Binary64.floor negative mantissa exponent)
        (partsAboveFloor 1000000 negative mantissa exponent)

/-- A number that is a text of its own. -/
inductive WrittenNumber where
  | whole (value : Int)
  | pointed (value : Decimal)
  deriving Repr, DecidableEq

/-- The power of ten at the end of a number: nothing, or a letter and a whole number. -/
def powerPart? (chars : List Char) : Option Int :=
  match chars with
  | [] => some 0
  | mark :: rest => do
    guard (mark = 'e' || mark = 'E')
    let (down, digits) := match rest with
      | '-' :: rest => (true, rest)
      | '+' :: rest => (false, rest)
      | _ => (false, rest)
    guard (!digits.isEmpty && digits.all fun c => (digit? c).isSome)
    let power : Int := digitsValue digits
    return if down then -power else power

/-- A decimal number that is a text of its own: a sign and digits; or a sign, digits with a point
before, among or after them, and perhaps a power of ten. -/
def numberText? (chars : List Char) : Option WrittenNumber := do
  let (negative, chars) := match chars with
    | '-' :: rest => (true, rest)
    | '+' :: rest => (false, rest)
    | _ => (false, chars)
  let isDigit := fun c => (digit? c).isSome
  let whole := chars.takeWhile isDigit
  match chars.dropWhile isDigit with
  | [] =>
    guard !whole.isEmpty
    let value : Int := digitsValue whole
    return .whole (if negative then -value else value)
  | '.' :: rest =>
    let fraction := rest.takeWhile isDigit
    guard !(whole ++ fraction).isEmpty
    let power ← powerPart? (rest.dropWhile isDigit)
    return .pointed ⟨negative, digitsValue (whole ++ fraction), power - fraction.length⟩
  | _ => none

/-- The point in time that a text stands for if it is a number.  A number with a point that is out
of range counts as no number. -/
def ofNumberText? (chars : List Char) : Option (Except TimeFault Timestamp) :=
  match numberText? chars with
  | none => none
  | some (.whole count) =>
    if leastCount ≤ count ∧ count ≤ greatestCount then some (ofCount count) else none
  | some (.pointed number) =>
    match ofWrittenBinary64 (Binary64.ofDecimal number) with
    | .error (.number _) => none
    | result => some result

def ofText (text : String) : Except TimeFault Timestamp :=
  let chars := text.toList
  match fullParts? chars with
  | some parts => ofParts parts
  | none =>
    match ofNumberText? chars with
    | some (.error (.number fault)) => .error (.text fault)
    | some result => result
    | none =>
      match datePart chars with
      | .error fault => .error (.text fault)
      | .ok (year, month, day, rest) =>
        if rest.isEmpty then ofParts ((year, month, day), (0, 0, 0, 0), none)
        else .error (.text .extraCharacters)

/-- The point in time that a value of a document stands for. -/
def ofJson : Json → Except TimeFault Timestamp
  | .str text => ofText text
  | .num (.int count) =>
    if leastCount ≤ count ∧ count ≤ greatestCount then ofCount count else .error .notTime
  | .num (.decimal number) => ofBinary64 (Binary64.ofDecimal number)
  | .num .nan => .error .notANumber
  | .num (.infinite negative) => ofBinary64 (.infinite negative)
  | _ => .error .notTime

end Timestamp
end TypeAtlas
