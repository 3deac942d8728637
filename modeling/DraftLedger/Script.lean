import DraftLedger.Column
import DraftLedger.Digest.Blake3
import DraftLedger.Sql.Literal
import DraftLedger.Staging

/-!
# Scripts

A script is what staged changes mean in the language of a database: one statement for each change,
in order, with warnings and a fingerprint of all that it covers.

* `Script` : the statements with what is known about them.
* `Sql.statement` : the statement of one change.
* `Script.compile` : the script of a list of changes.
* `Script.fingerprintInput` : the bytes whose digest is the fingerprint.
-/

set_option autoImplicit false

namespace DraftLedger

namespace Sql

/-! ## Statements -/

/-- Reads a list with a partial function; the first refusal counts. -/
def forEach {α β : Type} (f : α → Except Error β) : List α → Except Error (List β)
  | [] => .ok []
  | a :: rest =>
    match f a with
    | .error e => .error e
    | .ok b =>
      match forEach f rest with
      | .ok bs => .ok (b :: bs)
      | .error e => .error e

/-- Columns of a row with their cells and the texts made of them. -/
def forColumns {β : Type} (row : Row) (f : String → Cell → Except Error β) :
    Except Error (List β) :=
  forEach (fun e => f e.1 e.2) row.entries

def nameList (d : Dialect) (columns : List String) : String :=
  commaSeparated (columns.map (quoteName d))

/-- The part of an insertion that asks for the key that the database generates: only for a change
without a key, only where the dialect has it and the columns of the key are known. -/
def returningClause (d : Dialect) (c : Change) (keyColumns : Option (List String)) : String :=
  match keyColumns with
  | some (column :: more) =>
    if c.isFullRowAddressed && d.hasReturning then
      " RETURNING " ++ nameList d (column :: more)
    else ""
  | _ => ""

/-- An insertion; without values, the row of defaults. -/
def insertStatement (d : Dialect) (c : Change) (keyColumns : Option (List String)) :
    Except Error String := do
  let values := c.newValues.getD Dict.empty
  let into := "INSERT INTO " ++ qualifiedName d c.table
  let body ←
    if values.isEmpty then
      .ok (if d = .mysql then " () VALUES ()" else " DEFAULT VALUES")
    else do
      let cells ← forColumns values fun _ cell => literal d cell
      .ok (" (" ++ nameList d values.keys ++ ") VALUES (" ++ commaSeparated cells ++ ")")
  .ok (into ++ body ++ returningClause d c keyColumns)

def predicate (d : Dialect) (column : String) (cell : Cell) : Except Error String :=
  if cell.isNull then .ok (quoteName d column ++ " IS NULL")
  else
    match literal d cell with
    | .ok value => .ok (quoteName d column ++ " = " ++ value)
    | .error e => .error e

/-- The condition that a row is the one of the change: one conjunct for each column that it is
pointed at with. -/
def whereClause (d : Dialect) (c : Change) : Except Error String :=
  match c.address? with
  | none => .error (.addressing c.table (.change c.kind c.id))
  | some address => (forColumns address.columns (predicate d)).map (" AND ".intercalate ·)

def assignment (d : Dialect) (column : String) (cell : Cell) : Except Error String :=
  (literal d cell).map fun value => quoteName d column ++ " = " ++ value

/-- An update; it needs something to set. -/
def updateStatement (d : Dialect) (c : Change) : Except Error String := do
  let assignments ← forColumns (c.newValues.getD Dict.empty) (assignment d)
  if assignments.isEmpty then .error (.invalidChange (.nothingToSet c.id c.table))
  else do
    let condition ← whereClause d c
    .ok ("UPDATE " ++ qualifiedName d c.table ++ " SET " ++ commaSeparated assignments ++
      " WHERE " ++ condition)

def deleteStatement (d : Dialect) (c : Change) : Except Error String := do
  let condition ← whereClause d c
  .ok ("DELETE FROM " ++ qualifiedName d c.table ++ " WHERE " ++ condition)

def statement (d : Dialect) (keyColumns : KeyColumns) (c : Change) : Except Error String :=
  match c.kind with
  | .insert => insertStatement d c (keyColumns.get? c.table)
  | .update => updateStatement d c
  | .delete => deleteStatement d c

end Sql

/-! ## Scripts -/

/-- A compiled list of changes. -/
structure Script where
  sql : String
  statements : List String
  warnings : List String
  /-- The changes that the script covers, in the order of the statements. -/
  changeIds : List ChangeId
  /-- The updates and deletions that find their row by all columns known of it. -/
  fullRowChanges : List ChangeId
  dialect : Dialect
  scope : Option Table
  fingerprint : String

namespace Script

def statementCount (s : Script) : Nat := s.statements.length

def isEmpty (s : Script) : Bool := s.statements.isEmpty

/-- Whether a user has to accept that rows are found by all columns. -/
def needsAcknowledgement (s : Script) : Bool := !s.fullRowChanges.isEmpty

/-- Whether a change is an update or deletion without a key. -/
def isFullRowChange (c : Change) : Bool := c.kind ≠ .insert && c.isFullRowAddressed

/-- The key columns that an update gives another value. -/
def rekeyedColumns (c : Change) : List String :=
  match c.kind, c.primaryKey, c.newValues with
  | .update, some key, some new =>
    (key.entries.filter fun e =>
      match new.get? e.1 with
      | some value => value != e.2
      | none => false).map (·.1)
  | _, _, _ => []

def changeWarnings (c : Change) : List String :=
  (if isFullRowChange c then
    [c.kind.name ++ " on " ++ c.table.displayName ++
      " has no primary key and matches its row by every column; " ++
      "identical rows would all be affected"]
  else []) ++
  match rekeyedColumns c with
  | [] => []
  | columns =>
    ["update on " ++ c.table.displayName ++ " changes key column(s) " ++
      Sql.commaSeparated columns]

/-- Whether a change is an insertion that nothing but its values tells from others. -/
def isAnonymousInsert (c : Change) : Bool :=
  c.kind = .insert && c.isFullRowAddressed && c.newValues.isSome

/-- Whether two changes put equal rows into one table. -/
def sameRow (a b : Change) : Bool :=
  a.table = b.table && a.newValues.getD Dict.empty == b.newValues.getD Dict.empty

/-- Counts equal insertions: each first one with the number of its like. -/
def countInserts (counted : List (Change × Nat)) (c : Change) : List (Change × Nat) :=
  match counted with
  | [] => [(c, 1)]
  | (first, n) :: rest =>
    if sameRow first c then (first, n + 1) :: rest else (first, n) :: countInserts rest c

/-- The warnings about insertions that cannot be told apart. -/
def duplicateWarnings (changes : List Change) : List String :=
  (((changes.filter isAnonymousInsert).foldl countInserts []).filter fun e => 1 < e.2).map fun e =>
    String.ofList (Text.decimal e.2) ++ " identical inserts staged for " ++
      e.1.table.displayName ++ " without a key; they cannot be told apart"

/-- The warning about a script with more statements than the threshold. -/
def lengthWarnings (count threshold : Nat) : List String :=
  if threshold < count then
    ["script has " ++ String.ofList (Text.decimal count) ++
      " statements, above the review threshold of " ++ String.ofList (Text.decimal threshold)]
  else []

/-- Statements as one text, each closed by a semicolon. -/
def joined (statements : List String) : String :=
  if statements.isEmpty then "" else ";\n".intercalate statements ++ ";"

/-- The lowest `n` bytes of a number, the lowest first. -/
def littleEndian : Nat → Nat → List UInt8
  | 0, _ => []
  | n + 1, x => UInt8.ofNat x :: littleEndian n (x / 256)

/-- The revision of a change: its identifier and the time of its last edit. -/
def revisionBytes (c : Change) : List UInt8 :=
  c.id.uuid.bytes ++ littleEndian 8 c.updatedAt.wall.toNat ++
    littleEndian 4 c.updatedAt.counter.toNat

def utf8 (s : String) : List UInt8 := s.toUTF8.data.toList

/-- What the fingerprint covers: the dialect, the revision of each change, and the text. -/
def fingerprintInput (d : Dialect) (changes : List Change) (sql : String) : List UInt8 :=
  utf8 d.name ++ changes.flatMap revisionBytes ++ utf8 sql

/-- The digest in hexadecimal digits. -/
def fingerprintOf (d : Dialect) (changes : List Change) (sql : String) : String :=
  String.ofList (Text.hexBytes Text.hexDigit (Blake3.digest (fingerprintInput d changes sql)))

/-- The changes of the table in scope, or all of them. -/
def covered (scope : Option Table) (changes : List Change) : List Change :=
  match scope with
  | none => changes
  | some table => changes.filter fun c => c.table = table

/-- Compiles the changes in scope, in order. -/
def compile (threshold : Nat) (keyColumns : KeyColumns) (d : Dialect) (scope : Option Table)
    (changes : List Change) : Except Error Script :=
  let included := covered scope changes
  (Sql.forEach (Sql.statement d keyColumns) included).map fun statements =>
    let sql := joined statements
    { sql
      statements
      warnings := included.flatMap changeWarnings ++ duplicateWarnings included ++
        lengthWarnings statements.length threshold
      changeIds := included.map (·.id)
      fullRowChanges := (included.filter isFullRowChange).map (·.id)
      dialect := d
      scope
      fingerprint := fingerprintOf d included sql }

end Script

end DraftLedger
