import AnswerKey.Toml.Basic

namespace AnswerKey.Toml

/-- How a table came to be: by a header of its own, on the way to another header's table, or by a dotted
key. -/
inductive Origin where
  | header
  | way
  | dotted
deriving DecidableEq

/-- What stands under a key while a document is read: a value, a table, or tables of which the newest is
first. -/
inductive Node where
  | value (v : Toml)
  | table (origin : Origin) (entries : List (String × Node))
  | tables (newest : List (String × Node)) (older : List (List (String × Node)))

abbrev Entries := List (String × Node)

def setEntry (key : String) (node : Node) : Entries → Entries
  | [] => [(key, node)]
  | (key', node') :: entries =>
    if key = key' then (key, node) :: entries else (key', node') :: setEntry key node entries

/-- Changes the table at the end of a path. Keys that are not there yet become tables of the given origin; a
path of dotted keys does not lead through tables that a header has opened. The change is told the origin of
the table. -/
def changeAt? (made : Origin) (change : Origin → Entries → Option Entries) (origin : Origin) :
    (path : List String) → Entries → Option Entries
  | [], entries => change origin entries
  | key :: path, entries =>
    match entries.lookup key with
    | none =>
      (changeAt? made change made path []).map fun inner ↦ setEntry key (.table made inner) entries
    | some (.value _) => none
    | some (.table origin inner) =>
      if made = .dotted ∧ origin = .header then none
      else
        (changeAt? made change origin path inner).map fun inner ↦ setEntry key (.table origin inner) entries
    | some (.tables newest older) =>
      (changeAt? made change .header path newest).map fun inner ↦ setEntry key (.tables inner older) entries

def addValue? (path : List String) (key : String) (v : Toml) : Entries → Option Entries :=
  changeAt? .dotted
    (fun origin entries ↦
      if (origin = .dotted) = path.isEmpty then none
      else if (entries.lookup key).isSome then none
      else some (setEntry key (.value v) entries))
    .header path

/-- Opens a table; one that is only on the way to others may be opened later. -/
def openTable? (key : String) (entries : Entries) : Option Entries :=
  match entries.lookup key with
  | none => some (setEntry key (.table .header []) entries)
  | some (.table .way inner) => some (setEntry key (.table .header inner) entries)
  | _ => none

def openElement? (key : String) (entries : Entries) : Option Entries :=
  match entries.lookup key with
  | none => some (setEntry key (.tables [] []) entries)
  | some (.tables newest older) => some (setEntry key (.tables [] (newest :: older)) entries)
  | _ => none

inductive Statement where
  | table (path : List String) (key : String)
  | element (path : List String) (key : String)
  | value (path : List String) (key : String) (v : Toml)

structure Building where
  root : Entries := []
  path : List String := []

def Building.add? (b : Building) : Statement → Option Building
  | .table path key =>
    (changeAt? .way (fun _ ↦ openTable? key) .header path b.root).map fun root ↦ ⟨root, path ++ [key]⟩
  | .element path key =>
    (changeAt? .way (fun _ ↦ openElement? key) .header path b.root).map fun root ↦ ⟨root, path ++ [key]⟩
  | .value path key v =>
    (changeAt? .way (fun _ ↦ addValue? path key v) .header b.path b.root).map fun root ↦ { b with root }

mutual

def Node.toToml : Node → Toml
  | .value v => v
  | .table _ entries => .table (entriesToToml entries)
  | .tables newest older => .array ((tablesToToml older).reverse ++ [.table (entriesToToml newest)])

def entriesToToml : List (String × Node) → List (String × Toml)
  | [] => []
  | (key, node) :: entries => (key, node.toToml) :: entriesToToml entries

def tablesToToml : List (List (String × Node)) → List Toml
  | [] => []
  | entries :: older => .table (entriesToToml entries) :: tablesToToml older

end

def build? (statements : List Statement) : Option (List (String × Toml)) :=
  (statements.foldlM Building.add? {}).map fun b ↦ entriesToToml b.root

def inlineTable? (pairs : List (List String × String × Toml)) : Option Toml :=
  (pairs.foldlM (fun entries (path, key, v) ↦ addValue? path key v entries) []).map fun entries ↦
    table (entriesToToml entries)

end AnswerKey.Toml
