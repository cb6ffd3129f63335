import TypeAtlas.Decimal.Shortest
import TypeAtlas.Json.Printer
import TypeAtlas.Text.Quoted

/-!
# Values inside messages

Where a message quotes a value, texts stand in quotes as `Text.quote` writes them, the constants are
`None`, `True` and `False`, a number with a fraction has its shortest digits, and lists and tables
are written on one line with a comma and a space between their parts.
-/

namespace TypeAtlas.Json

mutual

def inMessage : Json → String
  | .null => "None"
  | .bool true => "True"
  | .bool false => "False"
  | .num (.int value) => String.ofList (printInt value)
  | .num (.decimal value) => Binary64.text Binary64.messageNotation (Binary64.ofDecimal value)
  | .num .nan => "nan"
  | .num (.infinite negative) => if negative then "-inf" else "inf"
  | .str value => Text.quote value
  | .arr items => "[" ++ String.intercalate ", " (itemsInMessage items) ++ "]"
  | .obj fields => "\x7b" ++ String.intercalate ", " (fieldsInMessage fields) ++ "\x7d"

def itemsInMessage : List Json → List String
  | [] => []
  | item :: items => inMessage item :: itemsInMessage items

def fieldsInMessage : List (String × Json) → List String
  | [] => []
  | (key, value) :: fields => (Text.quote key ++ ": " ++ inMessage value) :: fieldsInMessage fields

end

/-- A value that stands in a message by itself: a text as it is, everything else as it is quoted. -/
def bare : Json → String
  | .str value => value
  | value => value.inMessage

/-- Whether a value says nothing: it is null, false, zero or empty. -/
def saysNothing : Json → Bool
  | .null => true
  | .bool value => !value
  | .num (.int value) => value == 0
  | .num (.decimal value) =>
    match Binary64.ofDecimal value with
    | .finite _ mantissa _ => mantissa == 0
    | .infinite _ => false
  | .num _ => false
  | .str value => value.isEmpty
  | .arr items => items.isEmpty
  | .obj fields => fields.isEmpty

def kindInMessage : Json → String
  | .null => "NoneType"
  | .bool _ => "bool"
  | .num (.int _) => "int"
  | .num _ => "float"
  | .str _ => "str"
  | .arr _ => "list"
  | .obj _ => "dict"

end TypeAtlas.Json
