import DraftLedger.Column
import DraftLedger.Identity
import DraftLedger.Row

/-!
# Databases

What the library needs from a database, and a stand-in that answers from a table of columns and
fails when it is told to.

* `ExecutionError` : how a database fails.
* `Database` : the stand-in.
* `Database.submit`, `Database.settle` : a transaction on its way in and out.
-/

set_option autoImplicit false

namespace DraftLedger

/-- How a database fails. -/
inductive ExecutionError where
  /-- It turns the statements down, perhaps at a known one. -/
  | database (message : String) (statement : Option Nat)
  | connection (message : String)
  | timeout (message : String)
deriving DecidableEq

namespace ExecutionError

def driverMessage : ExecutionError → String
  | .database m _ => m
  | .connection m => m
  | .timeout m => m

/-- The text with the kind of failure in front. -/
def message : ExecutionError → String
  | .database m _ => m
  | .connection m => "connection lost: " ++ m
  | .timeout m => "timed out: " ++ m

end ExecutionError

/-- A stand-in for a database. -/
structure Database where
  /-- The statements of every transaction that it has been handed. -/
  transactions : List (List String)
  /-- How the next transaction to end will fail, if it will. -/
  failure : Option ExecutionError
  /-- What it reports about the columns of tables. -/
  columns : Dict Table (List Column)

namespace Database

def empty : Database := ⟨[], none, Dict.empty⟩

def submit (d : Database) (statements : List String) : Database :=
  { d with transactions := d.transactions ++ [statements] }

/-- Ends a transaction: it commits unless a failure is waiting, which it takes. -/
def settle (d : Database) : Option ExecutionError × Database :=
  (d.failure, { d with failure := none })

/-- Makes the next transaction to end fail. -/
def failNext (d : Database) (error : ExecutionError) : Database :=
  { d with failure := some error }

/-- Reports these columns for a table from now on. -/
def setColumns (d : Database) (table : Table) (columns : List Column) : Database :=
  { d with columns := d.columns.insert table columns }

/-- The columns of a table, as reported over a connection. -/
def fetchColumns (d : Database) (handle : ConnectionHandle) (table : Table) :
    Except ExecutionError (List Column) :=
  match d.columns.get? table with
  | some columns => .ok columns
  | none =>
    .error (.database
      (handle.name ++ ": relation " ++ table.displayName ++ " does not exist") none)

end Database

end DraftLedger
