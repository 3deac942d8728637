import DraftLedger.Ledger
import DraftLedger.Ledger.Event

/-!
# Mutations of the ledger

Each mutation answers, gives the ledger after it and, exactly when it succeeds, an event.  A frozen
session refuses all of them except `clearApplied`, which belongs to the apply that froze it.

* `Ledger.Step` : what comes of a mutation.
* `Ledger.activate`, `Ledger.deactivate` : whether edits are staged.
* `Ledger.record`, `Ledger.recordUntimed` : stages an edit, or fails for want of the wall time.
* `Ledger.Failure` : why an edit is not staged.
* `Ledger.remove`, `Ledger.clearAll`, `Ledger.clearTable`, `Ledger.clearApplied` : take changes out.
* `Ledger.assignPrimaryKey` : gives an insertion the key that the database generated.
-/

set_option autoImplicit false

namespace DraftLedger

/-- The edit with a key from the registered columns of its table, unless it has one with columns
of its own. -/
def Edit.withRegisteredKey (e : Edit) (keyColumns : KeyColumns) : Edit :=
  match e.usableKey?, keyColumns.get? e.table with
  | none, some columns => e.withKey (e.knownValues.select? columns)
  | _, _ => e

namespace Ledger

/-- What comes of a mutation, which may fail for a cause of type `ε`. -/
structure Step (ε α : Type) where
  answer : Except ε α
  ledger : Ledger
  event : Option Event

def refused {ε α : Type} (l : Ledger) (e : ε) : Step ε α := ⟨.error e, l, none⟩

/-- A mutation that succeeds: the session is put in memory, written back, and told of. -/
def succeeded {ε α : Type} (l : Ledger) (s : SessionId) (session : Session) (answer : α)
    (kind : EventKind) : Step ε α :=
  ⟨.ok answer, (l.put s session).persist s, some ⟨s, kind⟩⟩

/-- Replaces a session by another one with an answer, unless it is frozen or the replacement is
refused. -/
def replacing {α : Type} (l : Ledger) (s : SessionId)
    (replacement : Session → Except Error (Session × α)) (kind : α → EventKind) : Step Error α :=
  let l := l.load s
  let session := l.session s
  if session.frozen then l.refused (.applyInProgress s)
  else
    match replacement session with
    | .error e => l.refused e
    | .ok (session, answer) => l.succeeded s session answer (kind answer)

/-! ## Sessions -/

/-- From now on edits of the session are staged. -/
def activate (l : Ledger) (s : SessionId) : Step Error Unit :=
  l.replacing s (fun session => .ok ({ session with active := true }, ())) fun _ => .activated

/-- From now on edits of the session are not staged. Its changes stay unless they are to be
discarded. -/
def deactivate (l : Ledger) (s : SessionId) (discard : Bool) : Step Error Unit :=
  l.replacing s
    (fun session =>
      .ok ({ session with
        active := false
        changes := if discard then [] else session.changes }, ()))
    fun _ => .deactivated discard

/-! ## Staging -/

/-- Why an edit is not staged. -/
inductive Failure where
  | refused (error : Error)
  /-- The wall time cannot be had. -/
  | untimed
  /-- The counter of the clock has come to its end, which breaks the call off. -/
  | overrun

def Failure.message : Failure → String
  | .refused error => error.message
  | .untimed => "core error: invalid data: system clock before epoch"
  | .overrun => "attempt to add with overflow"

/-- Stages an edit as a change with this identifier, at wall time `now`. An edit that is refused
because of a staged change has used up a reading of the clock. -/
def record (l : Ledger) (s : SessionId) (edit : Edit) (id : ChangeId) (now : UInt64) :
    Step Failure Outcome :=
  match edit.check with
  | .error e => l.refused (.refused e)
  | .ok () =>
    let l := l.load s
    let session := l.session s
    if session.frozen then l.refused (.refused (.applyInProgress s))
    else if session.active then
      match l.clock.tick? now with
      | none => l.refused .overrun
      | some (stamp, clock) =>
        let incoming := (edit.withRegisteredKey l.keyColumns).toChange id stamp
        let l := { l with clock }
        match stage session.changes incoming with
        | .error e => l.refused (.refused e)
        | .ok (changes, outcome) =>
          l.succeeded s { session with changes } outcome (.recorded outcome)
    else l.refused (.refused (.sessionInactive s))

/-- What comes of an edit while the wall time cannot be had: it fails, at the latest when the clock is
to be read. -/
def recordUntimed (l : Ledger) (s : SessionId) (edit : Edit) : Failure × Ledger :=
  match edit.check with
  | .error e => (.refused e, l)
  | .ok () =>
    let l := l.load s
    let session := l.session s
    if session.frozen then (.refused (.applyInProgress s), l)
    else if session.active then (.untimed, l)
    else (.refused (.sessionInactive s), l)

/-! ## Taking out -/

/-- The first change with an identifier, between the changes before and after it. -/
def locate? (id : ChangeId) : List Change → Option (List Change × Change × List Change)
  | [] => none
  | c :: rest =>
    if c.id = id then some ([], c, rest)
    else (locate? id rest).map fun parts => (c :: parts.1, parts.2)

def remove (l : Ledger) (s : SessionId) (id : ChangeId) : Step Error Change :=
  l.replacing s
    (fun session =>
      match locate? id session.changes with
      | none => .error (.changeNotFound id)
      | some (before, found, after) => .ok ({ session with changes := before ++ after }, found))
    fun _ => .removed id

/-- A session with only the changes that are kept, and the number of those that are not. -/
def keeping (keep : Change → Bool) (session : Session) : Session × Nat :=
  let kept := session.changes.filter keep
  ({ session with changes := kept }, session.changes.length - kept.length)

def clearAll (l : Ledger) (s : SessionId) : Step Error Nat :=
  l.replacing s (fun session => .ok (keeping (fun _ => false) session)) .cleared

def clearTable (l : Ledger) (s : SessionId) (table : Table) : Step Error Nat :=
  l.replacing s (fun session => .ok (keeping (fun c => c.table ≠ table) session)) .cleared

/-- Takes the changes out that a transaction has committed, frozen or not. -/
def clearApplied (l : Ledger) (s : SessionId) (ids : List ChangeId) : Step Error Nat :=
  let l := l.load s
  let (session, removed) := keeping (fun c => !ids.contains c.id) (l.session s)
  l.succeeded s session removed (.cleared removed)

/-! ## Generated keys -/

/-- The changes after one insertion got its key. Another change of the table must not have that
key. -/
def withAssignedKey (changes : List Change) (id : ChangeId) (key : Row) :
    Except Error (List Change) :=
  match locate? id changes with
  | none => .error (.changeNotFound id)
  | some (before, found, after) =>
    if found.kind ≠ .insert then .error (.invalidChange (.keyForOther id found.kind))
    else if (before ++ after).any fun c =>
        c.table = found.table && c.isTargetedBy (.key key) then
      .error (.conflict found.table .keyTaken)
    else .ok (before ++ { found with primaryKey := some key } :: after)

/-- Gives a staged insertion the key that the database generated for it. -/
def assignPrimaryKey (l : Ledger) (s : SessionId) (id : ChangeId) (key : Row) : Step Error Unit :=
  if key.isEmpty then l.refused (.invalidChange .emptyKey)
  else
    l.replacing s
      (fun session =>
        (withAssignedKey session.changes id key).map fun changes =>
          ({ session with changes }, ()))
      fun _ => .keyAssigned id

end Ledger

end DraftLedger
