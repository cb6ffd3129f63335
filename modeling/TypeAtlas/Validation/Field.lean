import TypeAtlas.Entries
import TypeAtlas.Text.Blank
import TypeAtlas.Validation.Issue

/-!
# Fields and the values they admit

How the parts of a document are read: a text, a name out of a list, a whole number, a switch.  Whole
numbers and switches are read generously, also from texts; every other value has one kind only.

A field may have two names.  The first one that the object has counts; the other one, if it is there
as well, is an extra key like any key that is not asked for.
-/

namespace TypeAtlas.Field

/-- The key under which an object has a field of the given names, and its value. -/
def chosen? (fields : List (String × Json)) (names : List String) : Option (String × Json) :=
  names.findSome? fun name => (Json.lookup? fields name).map fun value => (name, value)

/-- A field that the object must have; `whole` is the object itself. -/
def required (whole : Json) (fields : List (String × Json)) (names : List String)
    (check : Json → Checked α) : Checked α :=
  match chosen? fields names with
  | some (key, value) => (check value).under key
  | none => (Checked.fail .missing whole).under (names.headD "")

/-- A field that has a value of its own if the object leaves it out. -/
def optional (fields : List (String × Json)) (names : List String) (fallback : α)
    (check : Json → Checked α) : Checked α :=
  match chosen? fields names with
  | some (key, value) => (check value).under key
  | none => .ok fallback

/-- The keys that the object has beyond the fields with the given names, each of them once. -/
def extras (fields : List (String × Json)) (known : List (List String)) : Checked Unit :=
  let used := known.filterMap fun names => (chosen? fields names).map (·.1)
  match firsts (·.1) (fields.filter fun field => !used.contains field.1) with
  | [] => .ok ()
  | unknown => .error (unknown.map fun (key, value) => ⟨[key], .extra, value⟩)

def text : Json → Checked String
  | .str value => .ok value
  | other => .fail .notText other

def object (read : List (String × Json) → Checked α) (input : Json) : Checked α :=
  match input with
  | .obj fields => read fields
  | other => .fail .notObject other

/-- A text with at least one character. -/
structure NonemptyText where
  text : String
  ne_empty : text ≠ ""

/-- A text with at least one character. -/
def nonempty (input : Json) : Checked NonemptyText :=
  match input with
  | .str value => if h : value ≠ "" then .ok ⟨value, h⟩ else .fail .emptyText input
  | other => .fail .notText other

def textOrNull : Json → Checked (Option String)
  | .null => .ok none
  | .str value => .ok (some value)
  | other => .fail .notText other

/-- A name that stands for something; `problem` is what to say of a value that is no such name. -/
def named (problem : Problem) (ofName? : String → Option α) (input : Json) : Checked α :=
  match input with
  | .str name =>
    match ofName? name with
    | some value => .ok value
    | none => .fail problem input
  | other => .fail problem other

/-- A name out of a list that stands for a member of a kind. -/
def member (ofName? : String → Option α) (names : List String) : Json → Checked α :=
  named (.notMember names) ofName?

def literal (ofName? : String → Option α) (names : List String) : Json → Checked α :=
  named (.notLiteral names) ofName?

/-- An array of values of one kind; `problem` is what to say of a value that is no array. -/
def array (problem : Problem) (check : Json → Checked α) : Json → Checked (List α)
  | .arr items => Checked.eachFrom check 0 items
  | other => .fail problem other

/-! ## Whole numbers -/

def digitLimit : Nat := 4300

/-- The whole number that digits with a minus perhaps in front of them write: no sign else, no zero
in front of another digit.  Fails with `.oversizedInteger` at the first digit too many, whatever
follows. -/
def plainInteger? (chars : List Char) : Except Problem Int :=
  let (negative, body) := match chars with
    | '-' :: rest => (true, rest)
    | chars => (false, chars)
  let digits := body.takeWhile Char.isDigit
  if digits.head? = some '0' then if body = ['0'] then .ok 0 else .error .unreadableInteger
  else if digitLimit < digits.length then .error .oversizedInteger
  else if digits.isEmpty || digits.length < body.length then .error .unreadableInteger
  else
    let magnitude : Int := digits.foldl (fun value c => 10 * value + (c.toNat - 48)) 0
    .ok (if negative then -magnitude else magnitude)

/-- Whether a character may surround a number: those with the `White_Space` property may. -/
def isSurrounding (c : Char) : Bool :=
  Text.isBlank c && !(0x1C ≤ c.toNat && c.toNat ≤ 0x1F)

/-- A text from its first digit that is not zero on, a minus being as good as that.  Underscores
between the zeros are passed over, and of zeros alone or before a point the last character stays. -/
def withoutLeadingZeros? (chars : List Char) : Option (List Char) :=
  match chars with
  | '0' :: rest => afterZero '0' rest
  | c :: _ => if c.isDigit || c = '-' then some chars else none
  | [] => none
where
  /-- The same after a zero; `last` is the character before. -/
  afterZero (last : Char) : List Char → Option (List Char)
    | [] => some [last]
    | c :: rest =>
      if c = '0' || c = '_' then afterZero c rest
      else if c.isDigit || c = '-' then some (c :: rest)
      else if c = '.' then some (last :: c :: rest)
      else none

/-- A text without a point at which it ends but for zeros, of which there is one at least. -/
def withoutDecimalZeros (chars : List Char) : List Char :=
  match chars.dropWhile (· ≠ '.') with
  | _ :: '0' :: zeros => if zeros.all (· = '0') then chars.takeWhile (· ≠ '.') else chars
  | _ => chars

def doubleUnderscore : List Char → Bool
  | '_' :: '_' :: _ => true
  | _ :: rest => doubleUnderscore rest
  | [] => false

/-- A text without its underscores, if each of them stands alone between other characters. -/
def withoutUnderscores (chars : List Char) : List Char :=
  if chars.head? = some '_' || chars.getLast? = some '_' || doubleUnderscore chars then chars
  else chars.filter (· ≠ '_')

/-- The whole number that a text writes.  A text that is no plain one is read again without what may
surround a number: blanks, a plus, zeros in front, a point with zeros after it, and underscores;
then it is of no use to say that it is too large. -/
def integerText (value : String) : Except Problem Int :=
  match plainInteger? value.toList with
  | .error .unreadableInteger =>
    let trimmed :=
      ((value.toList.dropWhile isSurrounding).reverse.dropWhile isSurrounding).reverse
    let unsigned := match trimmed with
      | '+' :: rest => rest
      | chars => chars
    match withoutLeadingZeros? unsigned with
    | none => .error .unreadableInteger
    | some chars =>
      (plainInteger? (withoutUnderscores (withoutDecimalZeros chars))).mapError
        fun _ => .unreadableInteger
  | outcome => outcome

/-- The bounds of whole numbers that may be written with a fraction or an exponent. -/
def wholeLimit : Int := 9223372036854775808

/-- A whole number: as such, as a switch, as a number without a fraction, or as a text. -/
def integer (input : Json) : Checked Int :=
  match input with
  | .num (.int value) => .ok value
  | .bool value => .ok (if value then 1 else 0)
  | .num (.decimal value) =>
    match Binary64.ofDecimal value with
    | .infinite _ => .fail .notFinite input
    | .finite negative mantissa exponent =>
      let whole := Binary64.floor negative mantissa exponent
      if !Binary64.isWhole mantissa exponent then .fail .fractional input
      else if -wholeLimit < whole && whole < wholeLimit then .ok whole
      else .fail .oversizedInteger input
  | .num _ => .fail .notFinite input
  | .str value =>
    match integerText value with
    | .ok number => .ok number
    | .error problem => .fail problem input
  | _ => .fail .notInteger input

/-- A whole number from one on. -/
structure Positive where
  count : Nat
  pos : 0 < count

def positive (input : Json) : Checked Positive :=
  match integer input with
  | .error issues => .error issues
  | .ok number =>
    if h : 0 < number.toNat then .ok ⟨number.toNat, h⟩ else .fail (.below 1) input

/-! ## Switches -/

def onTexts : List String := ["1", "true", "t", "yes", "y", "on"]

def offTexts : List String := ["0", "false", "f", "no", "n", "off"]

def switchOfInt (input : Json) (number : Int) : Checked Bool :=
  if number = 0 then .ok false
  else if number = 1 then .ok true
  else .fail .unreadableBool input

/-- A switch: as such, as a number that is zero or one, or as one of the texts in any case. -/
def switch (input : Json) : Checked Bool :=
  match input with
  | .bool value => .ok value
  | .str value =>
    let small := Text.lowerAscii value
    if onTexts.contains small then .ok true
    else if offTexts.contains small then .ok false
    else .fail .unreadableBool input
  | .num (.int number) =>
    if -wholeLimit ≤ number && number < wholeLimit then switchOfInt input number
    else .fail .notBool input
  | .num (.decimal _) =>
    match integer input with
    | .ok number => switchOfInt input number
    | .error _ => .fail .notBool input
  | _ => .fail .notBool input

end TypeAtlas.Field
