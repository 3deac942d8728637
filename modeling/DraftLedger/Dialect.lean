import DraftLedger.Text.Blank

/-!
# Dialects

The databases that scripts are written for.

* `Dialect` : the four of them.
* `Dialect.name` : the canonical name.
* `Dialect.ofName?` : the names and other names, exactly.
* `Dialect.ofInput?` : the same for what a user types.
* `Dialect.hasReturning` : whether an insertion can give back generated keys.
-/

set_option autoImplicit false

namespace DraftLedger

/-- A target database. -/
inductive Dialect where
  | postgres
  | mysql
  | sqlite
  | sqlserver
deriving DecidableEq

namespace Dialect

/-- The canonical name. -/
def name : Dialect → String
  | .postgres => "postgres"
  | .mysql => "mysql"
  | .sqlite => "sqlite"
  | .sqlserver => "sqlserver"

def ofName? : String → Option Dialect
  | "postgres" | "postgresql" => some .postgres
  | "mysql" | "mariadb" => some .mysql
  | "sqlite" => some .sqlite
  | "sqlserver" | "mssql" => some .sqlserver
  | _ => none

/-- The dialect that a user types. -/
def ofInput? (s : String) : Option Dialect := ofName? (Text.folded s)

/-- Whether an insertion can give back the keys that the database generates. -/
def hasReturning : Dialect → Bool
  | .postgres | .sqlite => true
  | .mysql | .sqlserver => false

def all : List Dialect := [.postgres, .mysql, .sqlite, .sqlserver]

theorem ofName?_name (d : Dialect) : ofName? d.name = some d := by cases d <;> rfl

end Dialect

end DraftLedger
