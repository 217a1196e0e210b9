import AnswerKey.Number.Reading

namespace AnswerKey

inductive Json where
  | null
  | bool (b : Bool)
  | number (n : Number)
  | string (s : String)
  | array (items : List Json)
  | object (fields : List (String × Json))

namespace Json

def int (n : Int) : Json := .number (.int n)

def nat (n : Nat) : Json := .number (.int n)

def text (s : List Char) : Json := .string (.ofList s)

/-- Fields in order with one more; it replaces one of the same name. -/
def insertField {α : Type} (name : String) (value : α) : List (String × α) → List (String × α)
  | [] => [(name, value)]
  | (name', value') :: fields =>
    if name < name' then (name, value) :: (name', value') :: fields
    else if name = name' then (name, value) :: fields
    else (name', value') :: insertField name value fields

/-- Fields in any order put in order, the last of each name being kept. -/
def sortFields {α : Type} (fields : List (String × α)) : List (String × α) :=
  fields.foldl (fun sorted (name, value) ↦ insertField name value sorted) []

def ofFields (fields : List (String × Json)) : Json := .object (sortFields fields)

end Json
end AnswerKey
