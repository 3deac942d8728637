/-!
# Settings tables

* `Toml.Value` : a string, an integer, an empty array or a table.
* `Toml.Table` : values by name, each name once.
* `Toml.Table.put?`, `Toml.Table.open?` : a key with its value, and the header of a table.
-/

set_option autoImplicit false

namespace DraftLedger.Toml

/-- What first named a table; it decides what may still be added. -/
inductive Opening where
  /-- Braces, with all that the table holds between them. -/
  | braces
  /-- A key that leads through the table. -/
  | key
  /-- The header of a table inside the table. -/
  | passing
  /-- A header of its own. -/
  | header
deriving DecidableEq

/-- A value of a setting. -/
inductive Value where
  | string (value : String)
  | integer (value : Int)
  | emptyArray
  | table (opening : Opening) (entries : List (String × Value))

/-- Values by name. -/
abbrev Table := List (String × Value)

/-- The names that lead to a value: those of the tables around it and its own. -/
structure Path where
  way : List String
  name : String

def Path.names (p : Path) : List String := p.way ++ [p.name]

/-- Whether the value is an array or a table with nothing in it. -/
def Value.isEmpty : Value → Bool
  | .emptyArray => true
  | .table _ entries => entries.isEmpty
  | _ => false

namespace Table

def empty : Table := []

def get? (t : Table) (name : String) : Option Value :=
  (t.find? fun e => e.1 = name).map fun e => e.2

/-- The table with this value under a name, in the place of an earlier one. -/
def set : Table → String → Value → Table
  | [], name, value => [(name, value)]
  | e :: rest, name, value =>
    if e.1 = name then (name, value) :: rest else e :: set rest name value

def add? (t : Table) (name : String) (value : Value) : Option Table :=
  if (t.get? name).isSome then none else some (t.set name value)

/-- Changes the table at the end of a way of names; `enter` says as which table each name on the way
may be entered, given what stands there. -/
def reach? (enter : Option Value → Option (Opening × Table)) (change : Table → Option Table) :
    List String → Table → Option Table
  | [], t => change t
  | name :: way, t => do
    let (opening, inner) ← enter (t.get? name)
    some (t.set name (.table opening (← reach? enter change way inner)))

/-- A key leads through new tables and those that keys have named. -/
def byKey : Option Value → Option (Opening × Table)
  | none => some (.key, empty)
  | some (.table .key inner) => some (.key, inner)
  | some _ => none

/-- A header leads through new tables and all but those in braces. -/
def byHeader : Option Value → Option (Opening × Table)
  | none => some (.passing, empty)
  | some (.table .braces _) => none
  | some (.table opening inner) => some (opening, inner)
  | some _ => none

/-- A header opens a table that is new or that headers have only led through. -/
def asHeader : Option Value → Option (Opening × Table)
  | none => some (.header, empty)
  | some (.table .passing inner) => some (.header, inner)
  | some _ => none

/-- Puts a value at the end of a path, which must be free. -/
def put? (t : Table) (path : Path) (value : Value) : Option Table :=
  t.reach? byKey (fun inner => inner.add? path.name value) path.way

def open? (t : Table) (path : Path) : Option Table :=
  t.reach? byHeader (fun inner => inner.reach? asHeader some [path.name]) path.way

/-- Puts a value at the end of a path from the table with these names. -/
def putUnder? (t : Table) (header : List String) (path : Path) (value : Value) : Option Table :=
  t.reach? byHeader (fun inner => inner.put? path value) header

end Table

end DraftLedger.Toml
