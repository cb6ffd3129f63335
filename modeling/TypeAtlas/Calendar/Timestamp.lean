/-!
# Points in time

A `Timestamp` is a date of the Gregorian calendar in the years 1 to 9999 with a time of day to the
microsecond and, if its zone is known, the distance from UTC in seconds.  That the parts are in
their ranges is part of the type; `make?` is the way in.

`render` writes the one form that documents use: the fraction only if there is one, six digits then,
and the zone as `Z`, as a signed distance in hours and minutes, or not at all.
-/

namespace TypeAtlas

namespace Calendar

def isLeapYear (year : Nat) : Bool :=
  year % 4 = 0 && (year % 100 ≠ 0 || year % 400 = 0)

/-- The number of days of a month, zero if there is no such month. -/
def daysInMonth (year month : Nat) : Nat :=
  match month with
  | 2 => if isLeapYear year then 29 else 28
  | 4 | 6 | 9 | 11 => 30
  | 1 | 3 | 5 | 7 | 8 | 10 | 12 => 31
  | _ => 0

/-- The date that lies a number of days after the first day of 1970.  The count is moved to start at
the first of March of the year zero, so that the leap day is the last day of its year and the months
fall into a pattern of 153 days for five. -/
def dateOfDays (days : Int) : Int × Nat × Nat :=
  let shifted := days + 719468
  let era := shifted.fdiv 146097
  let dayOfEra := (shifted - era * 146097).toNat
  let yearOfEra :=
    (dayOfEra - dayOfEra / 1460 + dayOfEra / 36524 - dayOfEra / 146096) / 365
  let dayOfYear := dayOfEra - (365 * yearOfEra + yearOfEra / 4 - yearOfEra / 100)
  let marchMonth := (5 * dayOfYear + 2) / 153
  let day := dayOfYear - (153 * marchMonth + 2) / 5 + 1
  let month := if marchMonth < 10 then marchMonth + 3 else marchMonth - 9
  let year : Int := yearOfEra + era * 400
  (if month ≤ 2 then year + 1 else year, month, day)

end Calendar

/-- Whether the parts of a point in time are in their ranges. -/
def Timestamp.InRange (year month day hour minute second microsecond : Nat)
    (offset : Option Int) : Prop :=
  (1 ≤ year ∧ year ≤ 9999) ∧ (1 ≤ month ∧ month ≤ 12) ∧
    (1 ≤ day ∧ day ≤ Calendar.daysInMonth year month) ∧
    hour < 24 ∧ minute < 60 ∧ second < 60 ∧ microsecond < 1000000 ∧
    ∀ seconds ∈ offset, -86400 ≤ seconds ∧ seconds ≤ 86400

instance (year month day hour minute second microsecond : Nat) (offset : Option Int) :
    Decidable (Timestamp.InRange year month day hour minute second microsecond offset) := by
  unfold Timestamp.InRange
  cases offset <;> simp only [Option.mem_def] <;> infer_instance

/-- A date and time of day, and the distance from UTC in seconds if it is known. -/
structure Timestamp where
  year : Nat
  month : Nat
  day : Nat
  hour : Nat
  minute : Nat
  second : Nat
  microsecond : Nat
  offset : Option Int
  inRange : Timestamp.InRange year month day hour minute second microsecond offset
  deriving DecidableEq

namespace Timestamp

/-- The point in time with the given parts, if they are in their ranges. -/
def make? (year month day hour minute second microsecond : Nat) (offset : Option Int) :
    Option Timestamp :=
  if h : InRange year month day hour minute second microsecond offset then
    some ⟨year, month, day, hour, minute, second, microsecond, offset, h⟩
  else none

/-- A number in at least `width` decimal digits. -/
def padded (width n : Nat) : List Char :=
  let digits := Nat.toDigits 10 n
  List.replicate (width - digits.length) '0' ++ digits

/-- A distance from UTC, in whole minutes toward zero. -/
def renderOffset (seconds : Int) : List Char :=
  if seconds = 0 then ['Z']
  else
    let minutes := seconds.natAbs / 60
    let sign := if seconds < 0 then '-' else '+'
    sign :: (padded 2 (minutes / 60) ++ ':' :: padded 2 (minutes % 60))

def renderChars (time : Timestamp) : List Char :=
  padded 4 time.year ++ '-' :: padded 2 time.month ++ '-' :: padded 2 time.day ++
    'T' :: padded 2 time.hour ++ ':' :: padded 2 time.minute ++ ':' :: padded 2 time.second ++
    (if time.microsecond = 0 then [] else '.' :: padded 6 time.microsecond) ++
    (match time.offset with
      | none => []
      | some seconds => renderOffset seconds)

def render (time : Timestamp) : String :=
  String.ofList time.renderChars

end Timestamp
end TypeAtlas
