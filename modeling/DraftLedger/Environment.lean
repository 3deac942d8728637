import DraftLedger.Error

/-!
# Environments

* `Environment` : what a connection is used for.
* `Environment.needsToken` : where nothing runs before a token is typed.
-/

set_option autoImplicit false

namespace DraftLedger

/-- What a connection is used for. -/
inductive Environment where
  | development
  | staging
  | production
deriving DecidableEq

namespace Environment

/-- The canonical name. -/
def name : Environment → String
  | .development => "development"
  | .staging => "staging"
  | .production => "production"

/-- The environment with this canonical name. -/
def ofName? : String → Option Environment
  | "development" => some .development
  | "staging" => some .staging
  | "production" => some .production
  | _ => none

/-- The environment that a name or short name stands for. -/
def ofShortName? : String → Option Environment
  | "dev" => some .development
  | "stage" => some .staging
  | "prod" => some .production
  | word => ofName? word

/-- The environment that a user types, or the refusal of an unknown one. Blanks around the name and
the case of the letters A to Z do not count. -/
def read (input : String) : Except Error Environment :=
  match ofShortName? (Text.folded input) with
  | some e => .ok e
  | none => .error (.settings (.unknownEnvironment (Text.folded input)))

/-- Whether nothing runs before a token is typed. -/
def needsToken (e : Environment) : Bool := e = .production

theorem ofName?_name (e : Environment) : ofName? e.name = some e := by cases e <;> rfl

end Environment

end DraftLedger
