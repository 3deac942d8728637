import DraftLedger.Column
import DraftLedger.Document
import DraftLedger.Staging

/-!
# The ledger

A ledger holds what every session has staged.  Sessions come into memory from the store when they
are first used, and go back to it after every mutation, so that the store always has the latest
state that it agreed to keep.

* `Session`, `Ledger` : the state.
* `Ledger.session` : a session, in memory or recovered from the store.
* `Ledger.load`, `Ledger.visit` : what using a session does to the ledger.
* `Ledger.persist` : the way back to the store.
* `Ledger.freeze`, `Ledger.unfreeze` : the state of a session while a script of it runs.
-/

set_option autoImplicit false

namespace DraftLedger

/-! ## State -/

/-- The state of one session. -/
structure Session where
  /-- Whether edits are staged at all. -/
  active : Bool
  /-- Whether a script of the session is running, which holds every other mutation off. -/
  frozen : Bool
  changes : List Change

def Session.vacant : Session := ⟨false, false, []⟩

/-- Whether there is nothing to know about the session. -/
def Session.isVacant (s : Session) : Bool := !s.active && !s.frozen && s.changes.isEmpty

/-- The state of all sessions. -/
structure Ledger where
  /-- The space of the documents in the store. -/
  space : String
  store : Store
  clock : Clock
  /-- The sessions in memory. -/
  sessions : Dict SessionId Session
  /-- The columns that a key is taken from when an edit has none. -/
  keyColumns : KeyColumns

namespace Ledger

/-- A ledger on a store, with no session in memory. -/
def onStore (store : Store) (space : String) : Ledger :=
  ⟨space, store, Clock.start, Dict.empty, Dict.empty⟩

/-! ## Sessions -/

/-- The session as the store has it. A document that cannot be had counts as none. -/
def recovered (l : Ledger) (s : SessionId) : Session :=
  match Document.load l.store l.space s with
  | .ok (some d) => ⟨d.active, false, d.changes⟩
  | .ok none => Session.vacant
  | .error _ => Session.vacant

/-- The session: the one in memory, else the one in the store. -/
def session (l : Ledger) (s : SessionId) : Session :=
  match l.sessions.get? s with
  | some session => session
  | none => l.recovered s

/-- Brings a session into memory. The clock moves past every change that comes with it. -/
def load (l : Ledger) (s : SessionId) : Ledger :=
  match l.sessions.get? s with
  | some _ => l
  | none =>
    let session := l.recovered s
    { l with
        sessions := l.sessions.insert s session
        clock := l.clock.observeAll (session.changes.map (·.updatedAt)) }

/-- What looking at a session does: it comes into memory unless there is nothing to know about
it. -/
def visit (l : Ledger) (s : SessionId) : Ledger :=
  if (l.session s).isVacant then l else l.load s

/-- Whether edits of the session are staged. -/
def isActive (l : Ledger) (s : SessionId) : Bool := (l.session s).active

/-- Whether a script of the session is running. -/
def isFrozen (l : Ledger) (s : SessionId) : Bool := (l.session s).frozen

/-- The changes of a session, in the order in which they were staged. -/
def changes (l : Ledger) (s : SessionId) : List Change := (l.session s).changes

def changesOn (l : Ledger) (s : SessionId) (table : Table) : List Change :=
  (l.changes s).filter fun c => c.table = table

/-- The change of a session with this identifier. -/
def change? (l : Ledger) (s : SessionId) (id : ChangeId) : Option Change :=
  (l.changes s).find? fun c => c.id = id

/-- The sessions with a document in the store, in memory or not. -/
def storedSessions (l : Ledger) : Except Error (List SessionId) :=
  match Document.storedSessions l.store l.space with
  | .ok sessions => .ok sessions
  | .error e => .error (.storage e)

/-! ## Writing back -/

/-- Puts a session in memory in place of the one there. -/
def put (l : Ledger) (s : SessionId) (session : Session) : Ledger :=
  { l with sessions := l.sessions.insert s session }

/-- Writes a session to the store. Whatever the store does not take is lost with the memory, no
more. -/
def persist (l : Ledger) (s : SessionId) : Ledger :=
  let session := l.session s
  match Document.save l.store l.space (Document.current s session.active session.changes) with
  | .ok store => { l with store }
  | .error _ => l

/-! ## Key columns -/

/-- Registers the columns that identify the rows of a table; no columns take the registration
back. -/
def setKeyColumns (l : Ledger) (table : Table) (columns : List String) : Ledger :=
  { l with
      keyColumns :=
        if columns.isEmpty then l.keyColumns.erase table else l.keyColumns.insert table columns }

/-! ## Freezing -/

/-- Holds off the mutations of a session, unless that is done already. -/
def freeze (l : Ledger) (s : SessionId) : Except Error Unit × Ledger :=
  let l := l.load s
  let session := l.session s
  if session.frozen then (.error (.applyInProgress s), l)
  else (.ok (), l.put s { session with frozen := true })

/-- Lets the mutations of a session through again. A session with nothing to know about it leaves
memory. -/
def unfreeze (l : Ledger) (s : SessionId) : Ledger :=
  match l.sessions.get? s with
  | none => l
  | some session =>
    let session := { session with frozen := false }
    if session.isVacant then { l with sessions := l.sessions.erase s } else l.put s session

end Ledger

end DraftLedger
