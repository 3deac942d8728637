import DraftLedger.Staging

/-!
# Events

Every mutation that succeeds is one event.

* `EventKind`, `Event` : what happened, and in which session.
* `Event.countAfter` : what the event says about the number of changes.
-/

set_option autoImplicit false

namespace DraftLedger

/-- What happened in a session. -/
inductive EventKind where
  | activated
  | deactivated (discarded : Bool)
  | recorded (outcome : Outcome)
  | removed (id : ChangeId)
  | keyAssigned (id : ChangeId)
  | cleared (removed : Nat)
deriving DecidableEq

def EventKind.name : EventKind → String
  | .activated => "activated"
  | .deactivated _ => "deactivated"
  | .recorded _ => "recorded"
  | .removed _ => "removed"
  | .keyAssigned _ => "key_assigned"
  | .cleared _ => "cleared"

/-- Something that happened in a session. -/
structure Event where
  session : SessionId
  kind : EventKind
deriving DecidableEq

/-- The number of changes of the session after the event, from the number before it. It is below zero
for a listener that hears of changes being taken out before it hears that they were staged. -/
def Event.countAfter (e : Event) (before : Int) : Int :=
  match e.kind with
  | .recorded (.appended _) => before + 1
  | .recorded (.cancelled _) | .removed _ => before - 1
  | .cleared removed => before - removed
  | .deactivated true => 0
  | _ => before

end DraftLedger
