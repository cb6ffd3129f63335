import TypeAtlas.Decimal.Binary64

/-!
# JSON values

A value as a document holds it.  Whole numbers of any size are kept apart from numbers with a
fraction or an exponent, and an object is the list of its fields in document order, repetitions
included: of a repeated key the last one counts, which is what `lookup?` says.
-/

namespace TypeAtlas

/-- A number of a JSON document; the last two are the spellings `NaN` and `Infinity`. -/
inductive JsonNumber where
  | int (value : Int)
  | decimal (value : Decimal)
  | nan
  | infinite (negative : Bool)
  deriving Repr, DecidableEq

/-- A JSON value. -/
inductive Json where
  | null
  | bool (value : Bool)
  | num (value : JsonNumber)
  | str (value : String)
  | arr (items : List Json)
  | obj (fields : List (String × Json))
  deriving Repr, Inhabited

namespace Json

/-- The last value that a list of fields gives for a key. -/
def lookup? (fields : List (String × Json)) (key : String) : Option Json :=
  (fields.reverse.find? fun field => field.1 == key).map (·.2)

def ofInt (value : Int) : Json := .num (.int value)

def ofNat (value : Nat) : Json := .num (.int value)

def ofStrings (values : List String) : Json := .arr (values.map .str)

/-- A value that may be absent, written as null then. -/
def ofOption (toJson : α → Json) : Option α → Json
  | none => .null
  | some value => toJson value

end Json
end TypeAtlas
