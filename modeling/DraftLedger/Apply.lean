import DraftLedger.Environment
import DraftLedger.Script

/-!
# Applying a script

What an apply is asked with and what comes of it.

* `Apply.Request` : who applies, where, and what has been confirmed.
* `Apply.Outcome` : what comes of an apply that is let through.
* `Apply.Phase` : how far the latest apply of a session has come.
-/

set_option autoImplicit false

namespace DraftLedger.Apply

/-- What has to be typed before anything runs in production. -/
def token : String := "APPLY"

/-- Who applies, where, and what has been confirmed. -/
structure Request where
  session : SessionId
  environment : Environment
  /-- What was typed as confirmation. -/
  confirmation : Option String
  /-- Whether it is accepted that rows are found by all columns known of them. -/
  acknowledged : Bool

/-- Whether the environment lets the request through. -/
def Request.isConfirmed (r : Request) : Bool :=
  !r.environment.needsToken || r.confirmation = some token

/-- How a transaction ended. -/
inductive Result where
  /-- It committed this many statements. -/
  | committed (count : Nat)
  /-- It failed with this text of the database. -/
  | failed (message : String)
deriving DecidableEq

namespace Result

def isSuccess : Result → Bool
  | .committed _ => true
  | .failed _ => false

def appliedCount : Result → Nat
  | .committed n => n
  | .failed _ => 0

def failure? : Result → Option String
  | .committed _ => none
  | .failed message => some message

/-- The number of statements, or the failure as a refusal. -/
def toExcept : Result → Except Error Nat
  | .committed n => .ok n
  | .failed message => .error (.applyFailure message)

end Result

/-- What a user is asked before the script runs. -/
inductive Question where
  /-- To type the token. -/
  | productionToken
  /-- To accept that these changes find their rows by all columns known of them. -/
  | fullRowMatches (ids : List ChangeId)
deriving DecidableEq

/-- What comes of an apply that is let through. -/
inductive Outcome where
  | needsConfirmation (question : Question)
  | completed (result : Result)
deriving DecidableEq

/-- How far the latest apply of a session has come. -/
inductive Phase where
  | idle
  | confirming
  | applying
  | succeeded
  | failed
deriving DecidableEq

def Phase.name : Phase → String
  | .idle => "idle"
  | .confirming => "confirming"
  | .applying => "applying"
  | .succeeded => "succeeded"
  | .failed => "failed"

/-- What is known about the applies of a session. -/
structure Slot where
  phase : Phase
  /-- The apply under way. -/
  inFlight : Option ApplyId

def Slot.idle : Slot := ⟨.idle, none⟩

/-- A transaction on its way. -/
structure Call where
  id : ApplyId
  session : SessionId
  script : Script

/-- Where an apply stands when it is not being worked on. -/
inductive Progress where
  /-- It waits for the database. -/
  | waiting (call : Call)
  | ended (answer : Except Error Outcome)

end DraftLedger.Apply
