import DraftLedger.Row

/-!
# Columns and keys

* `Column` : what a database reports about a column.
* `Column.chooseKey?` : the columns that identify a row.
* `KeyColumns` : the columns known to identify the rows of each table.
-/

set_option autoImplicit false

namespace DraftLedger

/-- What a database reports about a column. -/
structure Column where
  name : String
  dataType : String
  nullable : Bool
  /-- The place of the column in the primary key, from one on. -/
  keyPosition : Option UInt32
  /-- Whether the column alone is unique. -/
  unique : Bool
deriving DecidableEq

namespace Column

/-- A column that may be null and is in no key. -/
def plain (name dataType : String) : Column := ⟨name, dataType, true, none, false⟩

/-- The column at a place in the primary key, which makes it never null. -/
def inPrimaryKey (c : Column) (position : UInt32) : Column :=
  { c with keyPosition := some position, nullable := false }

def asUnique (c : Column) : Column := { c with unique := true }

def notNull (c : Column) : Column := { c with nullable := false }

/-- The columns of the primary key with their places. -/
def keyed (columns : List Column) : List (UInt32 × String) :=
  columns.filterMap fun c => c.keyPosition.map fun p => (p, c.name)

/-- The columns that identify a row: those of the primary key in the order of their places, else
the first one that is unique and never null. -/
def chooseKey? (columns : List Column) : Option (List String) :=
  if (keyed columns).isEmpty then
    (columns.find? fun c => c.unique && !c.nullable).map fun c => [c.name]
  else some (((keyed columns).mergeSort fun a b => a.1 ≤ b.1).map (·.2))

def toJson (c : Column) : Json :=
  .object [("name", .string c.name), ("data_type", .string c.dataType),
    ("nullable", .bool c.nullable),
    ("primary_key_position",
      match c.keyPosition with
      | some p => Json.ofNat p.toNat
      | none => .null),
    ("unique", .bool c.unique)]

/-- Reads a stored column; the last two fields may be missing. -/
def ofJson? (j : Json) : Option Column := do
  match ← j.fields? ["name", "data_type", "nullable", "primary_key_position", "unique"] with
  | [some name, some dataType, some nullable, position, unique] =>
    let position ← Json.optional? (Json.word? UInt32.size) position
    let unique ←
      match unique with
      | some u => u.flag?
      | none => some false
    some ⟨← name.text?, ← dataType.text?, ← nullable.flag?, position.map UInt32.ofNat, unique⟩
  | _ => none

end Column

/-- The columns that identify the rows of each table. -/
abbrev KeyColumns := Dict Table (List String)

end DraftLedger
