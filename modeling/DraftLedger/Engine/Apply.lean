import DraftLedger.Engine

/-!
# Applies of an engine

An apply is worked on twice: once from its start until it waits for the database or ends before
that, and once from the answer of the database until its end.  In between, or instead of the
second time, it may be abandoned.

* `Engine.startApply` : the gates in order, then the way to the database.
* `Engine.finishApply` : the database answers.
* `Engine.abandonApply` : nobody waits for the answer any more.
* `Engine.apply` : start and finish at once.
-/

set_option autoImplicit false

namespace DraftLedger.Engine

/-! ## Slots -/

/-- What is known about the applies of a session. -/
def slot (e : Engine) (s : SessionId) : Apply.Slot := (e.slots.get? s).getD Apply.Slot.idle

/-- How far the latest apply of a session has come. -/
def phase (e : Engine) (s : SessionId) : Apply.Phase := (e.slot s).phase

/-- Whether an apply of the session is under way. -/
def isApplying (e : Engine) (s : SessionId) : Bool := (e.slot s).inFlight.isSome

/-- Whether the ledger holds off the mutations of a session. -/
def isFrozen (e : Engine) (s : SessionId) : Bool := e.ledger.isFrozen s

/-- The engine with other knowledge about the applies of a session. -/
def withSlot (e : Engine) (s : SessionId) (slot : Apply.Slot) : Engine :=
  { e with slots := e.slots.insert s slot }

def setPhase (e : Engine) (s : SessionId) (phase : Apply.Phase) : Engine :=
  e.withSlot s { e.slot s with phase }

/-- Takes a session for an apply: nothing else changes its changes meanwhile. -/
def claim (e : Engine) (s : SessionId) (id : ApplyId) : Except Error Unit × Engine :=
  match e.ledger.freeze s with
  | (.error refusal, ledger) => (.error refusal, { e with ledger })
  | (.ok (), ledger) => (.ok (), { e with ledger }.withSlot s ⟨.applying, some id⟩)

/-- Gives a session back after an apply, in the phase that the apply leaves it in. An idle session
needs no slot. -/
def release (e : Engine) (s : SessionId) (id : ApplyId) (phase : Apply.Phase) : Engine :=
  let e := { e with ledger := e.ledger.unfreeze s }
  if (e.slot s).inFlight = some id then
    if phase = .idle then { e with slots := e.slots.erase s } else e.withSlot s ⟨phase, none⟩
  else e

/-! ## Gates -/

/-- Refuses a script that is not the one that would be compiled now. -/
def checkCurrent (e : Engine) (s : SessionId) (script : Script) : Except Error Unit :=
  match Script.compile e.settings.threshold e.ledger.keyColumns script.dialect script.scope
      (e.ledger.changes s) with
  | .error refusal => .error refusal
  | .ok current =>
    if current.fingerprint = script.fingerprint then .ok () else .error (.staleScript s)

/-- Starts an apply. In order: no other apply of the session may be under way, production needs the
token, the script must be current, an empty script succeeds at once, and changes that find their
rows by all columns must be accepted. Then the statements go to the database in one
transaction. -/
def startApply (e : Engine) (request : Apply.Request) (script : Script) (id : ApplyId) :
    Apply.Progress × Engine :=
  let s := request.session
  if e.isApplying s then (.ended (.error (.applyInProgress s)), e)
  else if !request.isConfirmed then
    (.ended (.ok (.needsConfirmation .productionToken)), e.setPhase s .confirming)
  else
    match e.claim s id with
    | (.error refusal, e) => (.ended (.error refusal), e)
    | (.ok (), e) =>
      match e.checkCurrent s script with
      | .error refusal => (.ended (.error refusal), e.release s id .idle)
      | .ok () =>
        if script.isEmpty then
          (.ended (.ok (.completed (.committed 0))), e.release s id .succeeded)
        else if script.needsAcknowledgement && !request.acknowledged then
          (.ended (.ok (.needsConfirmation (.fullRowMatches script.fullRowChanges))),
            e.release s id .confirming)
        else
          let call : Apply.Call := ⟨id, s, script⟩
          (.waiting call,
            { e with
                database := e.database.submit script.statements
                calls := e.calls ++ [call] })

/-! ## Ends -/

/-- The transaction of an apply, if it waits for the database. -/
def call? (e : Engine) (id : ApplyId) : Option Apply.Call := e.calls.find? fun c => c.id = id

/-- The engine without the transaction of an apply. -/
def withoutCall (e : Engine) (id : ApplyId) : Engine :=
  { e with calls := e.calls.filter fun c => c.id ≠ id }

/-- The database ends a transaction. If it commits, exactly the changes that the script covers
leave the ledger, while the session is still held; if not, the ledger stays as it is. -/
def settle (e : Engine) (call : Apply.Call) : Apply.Result × Engine :=
  let (failure, database) := e.database.settle
  let e := { e.withoutCall call.id with database }
  match failure with
  | some error => (.failed error.driverMessage, e.release call.session call.id .failed)
  | none =>
    let e := (e.mutate fun l => l.clearApplied call.session call.script.changeIds).2
    (.committed call.script.statementCount, e.release call.session call.id .succeeded)

/-- The end of an apply that waits for the database. -/
def finishApply (e : Engine) (id : ApplyId) : Option Apply.Result × Engine :=
  match e.call? id with
  | none => (none, e)
  | some call =>
    let (result, e) := e.settle call
    (some result, e)

/-- Gives up an apply that waits for the database. -/
def abandonApply (e : Engine) (id : ApplyId) : Engine :=
  match e.call? id with
  | none => e
  | some call => (e.withoutCall id).release call.session id .idle

/-- An apply that is not left waiting. -/
def apply (e : Engine) (request : Apply.Request) (script : Script) (id : ApplyId) :
    Except Error Apply.Outcome × Engine :=
  match e.startApply request script id with
  | (.ended answer, e) => (answer, e)
  | (.waiting call, e) =>
    let (result, e) := e.settle call
    (.ok (.completed result), e)

end DraftLedger.Engine
