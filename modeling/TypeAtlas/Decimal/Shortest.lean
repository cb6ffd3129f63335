import TypeAtlas.Decimal.Binary64

/-!
# The shortest decimal text of a binary number

Of the decimal numbers that read back as a given 64-bit number, the text uses one with the fewest
digits, and of those the nearest.  For each count of digits only two candidates matter, the
neighbours of the number on that decimal grid, so seventeen rounds decide.

`Notation64` holds what is a matter of the format and not of the number: where positional notation
ends and how an exponent is written.
-/

namespace TypeAtlas.Binary64

/-- The decimal exponent of a positive fraction: the place of its first digit. -/
def decimalOrder (numerator denominator : Nat) : Int :=
  let guess : Int := (digitCount numerator : Int) - digitCount denominator
  let (power, unit) := scaled 10 1 guess
  if numerator * unit < denominator * power then guess - 1 else guess

/-- The neighbours of a positive fraction among the decimal numbers with `count` digits, the nearer
one first and at a tie the one with the even last digit. -/
def neighbours (numerator denominator count : Nat) : List (Nat × Int) :=
  let exponent := decimalOrder numerator denominator - (count : Int) + 1
  let (shifted, unit) := scaled 10 numerator (-exponent)
  let bottom := shifted / (denominator * unit)
  let nearest := roundHalfEven shifted (denominator * unit)
  if nearest = bottom then [(bottom, exponent), (bottom + 1, exponent)]
  else [(bottom + 1, exponent), (bottom, exponent)]

/-- The first decimal number with `count` digits or more, up to seventeen, that reads back as the
number. -/
def shortestFrom (mantissa : Nat) (exponent : Int) : (rounds count : Nat) → Nat × Int
  | 0, _ => (mantissa, 0)
  | rounds + 1, count =>
    let (numerator, denominator) := scaled 2 mantissa exponent
    match (neighbours numerator denominator count).find? fun (digits, place) =>
        ofDecimal ⟨false, digits, place⟩ = ofFraction false numerator denominator with
    | some found => found
    | none => shortestFrom mantissa exponent rounds (count + 1)

/-- Decimal digits without the zeros at their end, and the exponent that makes up for them. -/
def dropZeros (fuel digits : Nat) (exponent : Int) : Nat × Int :=
  match fuel with
  | 0 => (digits, exponent)
  | fuel + 1 =>
    if digits % 10 = 0 && digits ≠ 0 then dropZeros fuel (digits / 10) (exponent + 1)
    else (digits, exponent)

/-- The fewest digits that read back as the positive number, with their exponent. -/
def shortest (mantissa : Nat) (exponent : Int) : Nat × Int :=
  let (digits, place) := shortestFrom mantissa exponent 17 1
  dropZeros 400 digits place

/-- The choices of a format of numbers. -/
structure Notation64 where
  /-- The least power of ten of a first digit that is still written positionally. -/
  leastPositional : Int
  /-- The greatest such power. -/
  greatestPositional : Int
  /-- The least number of digits of an exponent. -/
  exponentWidth : Nat

/-- Positional from 0.0001 to below 10^16, otherwise an exponent with a sign and two digits. -/
def messageNotation : Notation64 := ⟨-4, 15, 2⟩

private def zeros (count : Nat) : List Char := List.replicate count '0'

/-- The exponent of a number with its sign, filled up with zeros. -/
def exponentText (width : Nat) (power : Int) : List Char :=
  let digits := Nat.toDigits 10 power.natAbs
  (if power < 0 then '-' else '+') :: (zeros (width - digits.length) ++ digits)

/-- Digits and their exponent in a format; a number always shows that it may have a fraction. -/
def layout (format : Notation64) (digits : Nat) (exponent : Int) : List Char :=
  let figures := Nat.toDigits 10 digits
  let power := exponent + figures.length - 1
  if power < format.leastPositional || format.greatestPositional < power then
    let fraction := figures.drop 1
    figures.take 1 ++ (if fraction.isEmpty then [] else '.' :: fraction) ++
      'e' :: exponentText format.exponentWidth power
  else if power < 0 then
    '0' :: '.' :: (zeros (power.natAbs - 1) ++ figures)
  else
    let whole := power.toNat + 1
    let filled := figures ++ zeros (whole - figures.length)
    let fraction := filled.drop whole
    filled.take whole ++ '.' :: (if fraction.isEmpty then ['0'] else fraction)

def text (format : Notation64) : Binary64 → String
  | .infinite negative => if negative then "-inf" else "inf"
  | .finite negative mantissa exponent =>
    let body :=
      if mantissa = 0 then ['0', '.', '0']
      else
        let (digits, place) := shortest mantissa exponent
        layout format digits place
    String.ofList (if negative then '-' :: body else body)

end TypeAtlas.Binary64
