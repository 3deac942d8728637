import DraftLedger.Apply
import DraftLedger.Audience
import DraftLedger.Execution
import DraftLedger.Page
import DraftLedger.Settings

/-!
# The engine

An engine puts the parts together: the ledger and its listeners, the page, the scripts, the
database and what is on its way to it.

* `Engine` : the state.
* `Engine.opened`, `Engine.reopened` : an engine on a store.
* `Engine.mutate` : a mutation of the ledger, heard by the listeners.
* `Engine.page`, `Engine.generate`, `Engine.detectKeys` : what a session sees and gets.
-/

set_option autoImplicit false

namespace DraftLedger

/-- An engine. -/
structure Engine where
  settings : Settings
  ledger : Ledger
  audience : Audience
  database : Database
  /-- The applies of each session. -/
  slots : Dict SessionId Apply.Slot
  /-- The transactions that the database has not ended. -/
  calls : List Apply.Call

namespace Engine

/-! ## Opening -/

def opened (settings : Settings) (store : Store) (database : Database) : Except Error Engine :=
  settings.check.map fun _ =>
    ⟨settings, Ledger.onStore store settings.storagePrefix, Audience.empty, database, Dict.empty, []⟩

/-- An engine with the same settings on the same store and database. Whatever was only in memory is
gone. -/
def reopened (e : Engine) : Engine :=
  { e with
      ledger := Ledger.onStore e.ledger.store e.settings.storagePrefix
      audience := Audience.empty
      slots := Dict.empty
      calls := [] }

/-- An engine whose clock has seen a reading. -/
def observing (e : Engine) (seen : Stamp) : Engine :=
  { e with ledger := { e.ledger with clock := e.ledger.clock.observe seen } }

/-! ## Mutations -/

/-- The engine after what came of a mutation: the listeners hear of the event, if it is one. -/
def hearing {ε α : Type} (e : Engine) (step : Ledger.Step ε α) : Engine :=
  match step.event with
  | none => { e with ledger := step.ledger }
  | some event =>
    let (ledger, audience) := Audience.announce event (step.ledger, e.audience)
    { e with ledger, audience }

def mutate {ε α : Type} (e : Engine) (mutation : Ledger → Ledger.Step ε α) :
    Except ε α × Engine :=
  let step := mutation e.ledger
  (step.answer, e.hearing step)

/-! ## Looking at a session -/

/-- What a look at a session tells, and the engine after it. -/
def look {α : Type} (e : Engine) (s : SessionId) (f : Ledger → α) : α × Engine :=
  (f e.ledger, { e with ledger := e.ledger.visit s })

/-- The page of fetched rows of a table: with the changes of the session while it is active, else
without. -/
def page (e : Engine) (s : SessionId) (table : Table) (fetched : List Row) : Page × Engine :=
  e.look s fun l =>
    if l.isActive s then
      Page.overlay e.settings.deleteDisplay (l.changesOn s table) fetched
    else Page.untouched fetched

/-- The script of what a session has staged, on one table or on all. -/
def generate (e : Engine) (s : SessionId) (dialect : Dialect) (scope : Option Table) :
    Except Error Script × Engine :=
  e.look s fun l =>
    Script.compile e.settings.threshold l.keyColumns dialect scope (l.changes s)

/-! ## Keys -/

/-- Registers the columns that identify the rows of a table. -/
def setKeyColumns (e : Engine) (table : Table) (columns : List String) : Engine :=
  { e with ledger := e.ledger.setKeyColumns table columns }

/-- Asks the database which columns identify the rows of a table, and registers them if there are
any. -/
def detectKeys (e : Engine) (handle : ConnectionHandle) (table : Table) :
    Except Error (Option (List String)) × Engine :=
  match e.database.fetchColumns handle table with
  | .error failure => (.error (.metadata table failure.message), e)
  | .ok columns =>
    match Column.chooseKey? columns with
    | none => (.ok none, e)
    | some key => (.ok (some key), e.setKeyColumns table key)

end Engine

end DraftLedger
