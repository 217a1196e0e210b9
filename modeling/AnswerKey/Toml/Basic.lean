import AnswerKey.Json.Basic

namespace AnswerKey

inductive Toml where
  | string (s : String)
  | integer (n : Int64)
  /-- A floating-point number; infinities and what is not a number carry none. -/
  | float (x : Option Binary64)
  | boolean (b : Bool)
  | dateTime (text : String)
  | array (items : List Toml)
  | table (entries : List (String × Toml))

namespace Toml

/-- The one key of a date or time where it counts as a table. -/
def dateTimeKey : String := "$__toml_private_datetime"

mutual

/-- The value as JSON, which has neither dates nor infinities. -/
def toJson : Toml → Json
  | string s => .string s
  | integer n => .int n.toInt
  | float (some x) => .number (.float x)
  | float none => .null
  | boolean b => .bool b
  | dateTime text => .object [(dateTimeKey, .string text)]
  | array items => .array (itemsToJson items)
  | table entries => .object (Json.sortFields (entriesToJson entries))

def itemsToJson : List Toml → List Json
  | [] => []
  | item :: items => toJson item :: itemsToJson items

def entriesToJson : List (String × Toml) → List (String × Json)
  | [] => []
  | (name, value) :: entries => (name, toJson value) :: entriesToJson entries

end

end Toml
end AnswerKey
