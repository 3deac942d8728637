import DraftLedger.Error

/-!
# Staging

A list of changes holds at most one live change for a row that can be pointed at.  A new change
either joins the end of the list or is taken in by the first change of its table whose row it
points at:

* an insertion takes in an update, and goes together with a deletion;
* an update takes in an update, and becomes a deletion with a deletion;
* a deletion takes in nothing;
* a second insertion for a key is refused, and insertions without a key always join the end.

Main definitions: `Change.isTargetedBy`, `Change.takeIn`, `stage`.
-/

set_option autoImplicit false

namespace DraftLedger

/-- What became of a staged edit. -/
inductive Outcome where
  /-- It is a change of its own. -/
  | appended (id : ChangeId)
  /-- It went into the change with this identifier. -/
  | merged (id : ChangeId)
  /-- The update with this identifier became a deletion. -/
  | replaced (id : ChangeId)
  /-- The insertion with this identifier went away together with it. -/
  | cancelled (id : ChangeId)
deriving DecidableEq

def Outcome.changeId : Outcome → ChangeId
  | .appended id | .merged id | .replaced id | .cancelled id => id

def Outcome.name : Outcome → String
  | .appended _ => "appended"
  | .merged _ => "merged"
  | .replaced _ => "replaced"
  | .cancelled _ => "cancelled"

namespace Change

/-- Whether an edit with this address lands on the row of the change: the address is one of those
of the change, or it is a key that the row without a key is to have, or it is a row that has the
key of the change. -/
def isTargetedBy (c : Change) (address : Address) : Bool :=
  c.reachableAddresses.contains address ||
    match address with
    | .key _ => c.isFullRowAddressed && (c.currentImage.map address.matchesRow).getD false
    | .fullRow image =>
      !c.isFullRowAddressed && (c.currentKey?.map fun key => (Address.key key).matchesRow image).getD
        false

/-- New values laid over those that the change has. -/
def withNewValues (c : Change) (incoming : Option Row) : Change :=
  match incoming with
  | none => c
  | some values => { c with newValues := some ((c.newValues.getD Dict.empty).overlay values) }

/-- Old values for the columns that the change knows nothing of: neither their old value nor a new
one, since the incoming old value of a column already set is only an intermediate one. -/
def withOldValues (c : Change) (incoming : Option Row) : Change :=
  match incoming with
  | none => c
  | some values =>
    let known (column : String) : Bool :=
      ((c.oldValues.getD Dict.empty).contains column) ||
        ((c.newValues.getD Dict.empty).contains column)
    let fresh := values.filter fun column _ => !known column
    { c with oldValues := some ((c.oldValues.getD Dict.empty).overlay fresh) }

/-- How a staged change takes in an update or deletion of its row: the change that stands in its
place, if any, and the outcome. -/
def takeIn (existing incoming : Change) : Except Error (Option Change × Outcome) :=
  match existing.kind, incoming.kind with
  | .delete, _ => .error (.conflict incoming.table .stagedForDeletion)
  | .insert, .delete => .ok (none, .cancelled existing.id)
  | .insert, _ =>
    let values := existing.withNewValues incoming.newValues
    .ok (some { values with
        primaryKey := values.currentKey?
        updatedAt := incoming.updatedAt }, .merged existing.id)
  | .update, .delete =>
    let filled := existing.withOldValues incoming.oldValues
    .ok (some { filled with
        kind := .delete
        newValues := none
        updatedAt := incoming.updatedAt }, .replaced existing.id)
  | .update, _ =>
    let filled := existing.withOldValues incoming.oldValues
    .ok (some { filled.withNewValues incoming.newValues with
        updatedAt := incoming.updatedAt }, .merged existing.id)

end Change

/-- Lets the first change of the same table that the address points at take in a new one, which
joins the end when there is none. -/
def stageAt (address : Address) (incoming : Change) :
    List Change → Except Error (List Change × Outcome)
  | [] => .ok ([incoming], .appended incoming.id)
  | existing :: rest =>
    if existing.table = incoming.table && existing.isTargetedBy address then
      match existing.takeIn incoming with
      | .ok (some changed, outcome) => .ok (changed :: rest, outcome)
      | .ok (none, outcome) => .ok (rest, outcome)
      | .error e => .error e
    else
      match stageAt address incoming rest with
      | .ok (rest, outcome) => .ok (existing :: rest, outcome)
      | .error e => .error e

def stage (changes : List Change) (incoming : Change) :
    Except Error (List Change × Outcome) :=
  match incoming.address? with
  | none => .error (.addressing incoming.table (.edit incoming.kind))
  | some address =>
    if incoming.kind = .insert then
      if !address.isFullRow &&
          changes.any fun c => c.table = incoming.table && c.isTargetedBy address then
        .error (.conflict incoming.table .alreadyStaged)
      else .ok (changes ++ [incoming], .appended incoming.id)
    else stageAt address incoming changes

end DraftLedger
