import AnswerKey.Toml.Reader

namespace AnswerKey.Toml

def asString? : Toml → Option String
  | string s => some s
  | _ => none

def asNat? : Toml → Option Nat
  | integer n => if n < 0 then none else some n.toInt.toNat
  | _ => none

def asStrings? : Toml → Option (List String)
  | array items => items.mapM asString?
  | _ => none

def asEntries? : Toml → Option (List (String × Toml))
  | table entries => some entries
  | dateTime text => some [(dateTimeKey, string text)]
  | _ => none

def asRecord? (names : List String) : Toml → Option (List (String × Toml))
  | array items => some (names.zip items)
  | v => v.asEntries?

def required? {α : Type} (entries : List (String × Toml)) (name : String) (read? : Toml → Option α) :
    Option α :=
  (entries.lookup name).bind read?

def optional? {α : Type} (entries : List (String × Toml)) (name : String) (default : α)
    (read? : Toml → Option α) : Option α :=
  match entries.lookup name with
  | none => some default
  | some v => read? v

end AnswerKey.Toml
