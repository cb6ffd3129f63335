/-!
# Decimal numbers and the binary numbers nearest to them

A number with a fraction or an exponent is read as a `Decimal`, exactly as written, and counts as
the 64-bit binary number nearest to it, of two equally near ones the even one.  Both are kept as
whole numbers with an exponent, so rounding is arithmetic on natural numbers and nothing else.
-/

namespace TypeAtlas

/-- The number `digits · 10 ^ exponent`, with a sign that zero may carry too. -/
structure Decimal where
  negative : Bool
  digits : Nat
  exponent : Int
  deriving Repr, DecidableEq

/-- A 64-bit binary number: `mantissa · 2 ^ exponent` with a sign, or an infinity. -/
inductive Binary64 where
  | finite (negative : Bool) (mantissa : Nat) (exponent : Int)
  | infinite (negative : Bool)
  deriving Repr, DecidableEq

namespace Binary64

/-- The quotient rounded to the nearest whole number, a half to the even neighbour. -/
def roundHalfEven (numerator denominator : Nat) : Nat :=
  let quotient := numerator / denominator
  let twice := 2 * (numerator % denominator)
  if twice < denominator then quotient
  else if denominator < twice then quotient + 1
  else if quotient % 2 = 0 then quotient else quotient + 1

/-- The fraction `number · base ^ exponent` as numerator and denominator. -/
def scaled (base number : Nat) (exponent : Int) : Nat × Nat :=
  match exponent with
  | .ofNat power => (number * Nat.pow base power, 1)
  | .negSucc power => (number, Nat.pow base (power + 1))

/-- The greatest whole number whose power of two is at most the positive fraction. -/
def binaryOrder (numerator denominator : Nat) : Int :=
  let guess : Int := (Nat.log2 numerator : Int) - Nat.log2 denominator
  let (power, unit) := scaled 2 1 guess
  if numerator * unit < denominator * power then guess - 1 else guess

/-- The least exponent of a 64-bit number. -/
def leastExponent : Int := -1074

def ofFraction (negative : Bool) (numerator denominator : Nat) : Binary64 :=
  let exponent := max (binaryOrder numerator denominator - 52) leastExponent
  let (shifted, unit) := scaled 2 numerator (-exponent)
  let mantissa := roundHalfEven shifted (denominator * unit)
  if mantissa < 9007199254740992 then
    if exponent ≤ 971 then .finite negative mantissa exponent else .infinite negative
  else if exponent + 1 ≤ 971 then .finite negative (mantissa / 2) (exponent + 1)
  else .infinite negative

/-- The number of decimal digits of a natural number, at least one. -/
def digitCount (n : Nat) : Nat :=
  (Nat.toDigits 10 n).length

/-- The 64-bit number nearest to a decimal one. -/
def ofDecimal (number : Decimal) : Binary64 :=
  let magnitude := number.exponent + digitCount number.digits
  if number.digits = 0 || magnitude < -330 then .finite number.negative 0 leastExponent
  else if 310 < magnitude then .infinite number.negative
  else
    let (numerator, denominator) := scaled 10 number.digits number.exponent
    ofFraction number.negative numerator denominator

/-- The greatest whole number that is at most the finite number. -/
def floor (negative : Bool) (mantissa : Nat) (exponent : Int) : Int :=
  let (numerator, denominator) := scaled 2 mantissa exponent
  if negative then -(((numerator + denominator - 1) / denominator : Nat) : Int)
  else ((numerator / denominator : Nat) : Int)

def isWhole (mantissa : Nat) (exponent : Int) : Bool :=
  let (numerator, denominator) := scaled 2 mantissa exponent
  numerator % denominator = 0

end Binary64
end TypeAtlas
