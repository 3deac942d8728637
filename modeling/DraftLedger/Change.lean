import DraftLedger.Identity
import DraftLedger.Row
import DraftLedger.Stamp

/-!
# Changes and edits

A change is one staged insertion, update or deletion of a row.  An edit is what a user asks for; it
becomes a change when it gets an identifier and a time.

* `Change` : the staged change, with the row as it was and the values it is to have.
* `Change.knownImage`, `Change.currentImage` : the row before and after.
* `Change.address?`, `Change.reachableAddresses` : how the row of a change is pointed at.
* `Edit`, `Edit.toChange` : what is asked for.
-/

set_option autoImplicit false

namespace DraftLedger

/-! ## Changes -/

/-- What a change does to its row. -/
inductive ChangeKind where
  | insert
  | update
  | delete
deriving DecidableEq

def ChangeKind.name : ChangeKind → String
  | .insert => "insert"
  | .update => "update"
  | .delete => "delete"

def ChangeKind.ofName? : String → Option ChangeKind
  | "insert" => some .insert
  | "update" => some .update
  | "delete" => some .delete
  | _ => none

/-- A staged change of one row of a table. -/
structure Change where
  id : ChangeId
  kind : ChangeKind
  table : Table
  primaryKey : Option Row
  oldValues : Option Row
  newValues : Option Row
  timestamp : Stamp
  updatedAt : Stamp

namespace Change

/-- The key of the change, unless it has none or one without columns. -/
def usableKey? (c : Change) : Option Row := c.primaryKey.filter fun key => !key.isEmpty

/-- The row as the database holds it, or the new row of an insertion. -/
def knownImage (c : Change) : Option Row :=
  match c.kind with
  | .insert => c.newValues
  | .update | .delete => c.oldValues

/-- The row as it is to be, or as it was for a deletion. -/
def currentImage (c : Change) : Option Row :=
  match c.kind with
  | .insert => c.newValues
  | .delete => c.oldValues
  | .update => some ((c.oldValues.getD Dict.empty).overlay (c.newValues.getD Dict.empty))

/-- How the change points at its row: by its key, else by the image known of it, neither being
empty. -/
def address? (c : Change) : Option Address :=
  match c.usableKey? with
  | some key => some (.key key)
  | none => (c.knownImage.filter fun image => !image.isEmpty).map .fullRow

/-- The key that the row will have: each key cell replaced by its new value. -/
def currentKey? (c : Change) : Option Row :=
  match c.usableKey? with
  | none => none
  | some key =>
    match c.newValues with
    | none => some key
    | some new => some (key.mapValues fun column value => (new.get? column).getD value)

/-- The address of the row before the change, and the one after it if that differs. -/
def reachableAddresses (c : Change) : List Address :=
  match c.address? with
  | none => []
  | some first =>
    let current :=
      if first.isFullRow then (c.currentImage.filter fun image => !image.isEmpty).map .fullRow
      else c.currentKey?.map .key
    match current with
    | some second => if first == second then [first] else [first, second]
    | none => [first]

/-- Whether the change has no key to point with. -/
def isFullRowAddressed (c : Change) : Bool := c.usableKey?.isNone

/-! ## Stored form -/

def toJson (c : Change) : Json :=
  .object ([("id", .string c.id.text), ("kind", .string c.kind.name),
      ("table", c.table.toJson)] ++
    Json.member? "primary_key" (c.primaryKey.map Row.toJson) ++
    Json.member? "old_values" (c.oldValues.map Row.toJson) ++
    Json.member? "new_values" (c.newValues.map Row.toJson) ++
    [("timestamp", c.timestamp.toJson), ("updated_at", c.updatedAt.toJson)])

def fieldNames : List String :=
  ["id", "kind", "table", "primary_key", "old_values", "new_values", "timestamp", "updated_at"]

def idOfJson? : Json → Option ChangeId
  | .string s => (Uuid.read? s.toList).map ChangeId.mk
  | _ => none

/-- Reads a stored change. Of the arrays and objects that the form is made of, at most `room` may lie
in each other. -/
def ofJson? (room : Nat) (j : Json) : Option Change := do
  let row? := Row.ofJson? .direct (room - 1)
  match ← j.fields? fieldNames with
  | [some id, some kind, some table, key, old, new, some timestamp, some updatedAt] =>
    let id ← idOfJson? id
    let kind ← (Cell.choice? kind).bind ChangeKind.ofName?
    let table ← Table.ofJson? table
    let key ← Json.optional? row? key
    let old ← Json.optional? row? old
    let new ← Json.optional? row? new
    let timestamp ← Stamp.ofJson? timestamp
    let updatedAt ← Stamp.ofJson? updatedAt
    some ⟨id, kind, table, key, old, new, timestamp, updatedAt⟩
  | _ => none

end Change

/-! ## Edits -/

/-- What a user asks for. -/
inductive Edit where
  | insert (table : Table) (values : Row) (primaryKey : Option Row)
  | update (table : Table) (primaryKey : Option Row) (oldValues newValues : Row)
  | delete (table : Table) (primaryKey : Option Row) (oldValues : Row)

namespace Edit

def kind : Edit → ChangeKind
  | .insert .. => .insert
  | .update .. => .update
  | .delete .. => .delete

def table : Edit → Table
  | .insert t _ _ => t
  | .update t _ _ _ => t
  | .delete t _ _ => t

def primaryKey : Edit → Option Row
  | .insert _ _ key => key
  | .update _ key _ _ => key
  | .delete _ key _ => key

/-- The cells in which a missing key is looked for: the new row of an insertion, else the row as it
was. -/
def knownValues : Edit → Row
  | .insert _ values _ => values
  | .update _ _ old _ => old
  | .delete _ _ old => old

def withKey (e : Edit) (key : Option Row) : Edit :=
  match e with
  | .insert t values _ => .insert t values key
  | .update t _ old new => .update t key old new
  | .delete t _ old => .delete t key old

/-- The key of the edit, unless it has none or one without columns. -/
def usableKey? (e : Edit) : Option Row := e.primaryKey.filter fun key => !key.isEmpty

/-- The edit as a change with this identifier, made at this time. A key without columns is no
key. -/
def toChange (e : Edit) (id : ChangeId) (at_ : Stamp) : Change :=
  { id
    kind := e.kind
    table := e.table
    primaryKey := e.usableKey?
    oldValues :=
      match e with
      | .insert .. => none
      | .update _ _ old _ => some old
      | .delete _ _ old => some old
    newValues :=
      match e with
      | .insert _ values _ => some values
      | .update _ _ _ new => some new
      | .delete .. => none
    timestamp := at_
    updatedAt := at_ }

end Edit

end DraftLedger
