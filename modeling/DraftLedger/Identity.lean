import DraftLedger.Dict
import DraftLedger.Uuid

/-!
# Identities

Sessions and connections have names, changes and applies have identifiers.

* `SessionId`, `ConnectionHandle` : names.
* `ChangeId`, `ApplyId` : identifiers.
* `label` : how an identity is shown where its kind has to be told.
-/

set_option autoImplicit false

namespace DraftLedger

/-- The name of a working session. -/
structure SessionId where
  name : String
deriving DecidableEq

/-- The name of a live connection to a database. -/
structure ConnectionHandle where
  name : String
deriving DecidableEq

/-- The identifier of a staged change. -/
structure ChangeId where
  uuid : Uuid
deriving DecidableEq

/-- The identifier of one attempt to apply a script. -/
structure ApplyId where
  uuid : Uuid
deriving DecidableEq

/-- Sessions are ordered by name. -/
instance : LinearKey SessionId where
  lt a b := a.name < b.name
  decLT a b := inferInstanceAs (Decidable (a.name < b.name))
  decEq := inferInstance
  irrefl a := String.lt_irrefl a.name
  trans h h' := String.lt_trans h h'
  connected {a b} h h' := by
    cases a; cases b
    exact congrArg SessionId.mk (String.le_antisymm h' h)

def ChangeId.text (id : ChangeId) : String := id.uuid.render

/-- A value with its kind in front. -/
def label (kind value : String) : String := kind ++ "(" ++ value ++ ")"

/-- An identifier with its kind in front, cut to its first group. -/
def shortLabel (kind : String) (u : Uuid) : String := label kind (String.ofList (u.digits.take 8))

end DraftLedger
