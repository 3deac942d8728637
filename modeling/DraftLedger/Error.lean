import DraftLedger.Change
import DraftLedger.Dialect
import DraftLedger.Text.Quoted

/-!
# Errors

Every refusal of the library is a cause; its wording is in one place.

* `StorageError`, `Error` : the causes.
* `Error.message` : the wording.
-/

set_option autoImplicit false

namespace DraftLedger

/-! ## Storage -/

/-- Why a document under a key does not count. -/
inductive StaleCause where
  /-- It has another version than the one in use. -/
  | version (found : Nat)
  /-- It was written for another session. -/
  | otherSession (found : SessionId)
  /-- The store turns every call away, for a reason of its own. -/
  | refused (reason : String)

/-- Why storage gives no answer. -/
inductive StorageError where
  /-- The text is no document. -/
  | unreadable
  /-- There is a document, but it does not count. -/
  | stale (key : String) (cause : StaleCause)

/-- The version of the documents in use. -/
def documentVersion : Nat := 1

def StaleCause.reason : StaleCause → String
  | .version found =>
    "version " ++ String.ofList (Text.decimal found) ++ " (expected " ++
      String.ofList (Text.decimal documentVersion) ++ ")"
  | .otherSession found => "belongs to session " ++ found.name
  | .refused reason => reason

def StorageError.message : StorageError → String
  | .unreadable => "serialization error"
  | .stale key cause => "stale document for key " ++ key ++ ": " ++ cause.reason

/-! ## The engine -/

/-- Why an edit or a change cannot stand. -/
inductive InvalidCause where
  | insertWithoutValues
  | updateWithoutNewValues
  | emptyKey
  /-- Only an insertion takes a generated key. -/
  | keyForOther (id : ChangeId) (kind : ChangeKind)
  /-- A staged update has nothing to set. -/
  | nothingToSet (id : ChangeId) (table : Table)

/-- Why an edit collides with a staged change. -/
inductive ConflictCause where
  | alreadyStaged
  | stagedForDeletion
  | keyTaken

/-- Why a row cannot be pointed at. -/
inductive AddressingCause where
  /-- An edit with neither a key nor values. -/
  | edit (kind : ChangeKind)
  /-- A staged change with neither a key nor old values. -/
  | change (kind : ChangeKind) (id : ChangeId)

/-- Why a dialect has no literal for a cell. -/
inductive UnsupportedCause where
  | nulCharacter
  | nonFinite
  | notDecimal (text : String)

/-- What is wrong with settings. -/
inductive SettingsFault where
  | zeroThreshold
  | storagePrefix (value : String)
  | unknownDialect (input : String)
  | unknownEnvironment (input : String)
  /-- The text of the settings cannot be read; whoever reads it words the reason. -/
  | unreadable

/-- Why an operation is refused. -/
inductive Error where
  | storage (error : StorageError)
  | invalidChange (cause : InvalidCause)
  | conflict (table : Table) (cause : ConflictCause)
  | addressing (table : Table) (cause : AddressingCause)
  | changeNotFound (id : ChangeId)
  | sessionInactive (session : SessionId)
  | applyInProgress (session : SessionId)
  | staleScript (session : SessionId)
  | unsupportedValue (dialect : Dialect) (kind : String) (cause : UnsupportedCause)
  | applyFailure (message : String)
  | metadata (table : Table) (reason : String)
  | settings (fault : SettingsFault)

def InvalidCause.reason : InvalidCause → String
  | .insertWithoutValues => "insert without values"
  | .updateWithoutNewValues => "update without new values"
  | .emptyKey => "empty primary key"
  | .keyForOther id kind =>
    "only inserts take a generated key, " ++ id.text ++ " is an " ++ kind.name
  | .nothingToSet id table =>
    "update " ++ id.text ++ " on " ++ table.displayName ++ " has no new values"

def ConflictCause.reason : ConflictCause → String
  | .alreadyStaged => "a change is already staged for this key"
  | .stagedForDeletion => "row is staged for deletion; undo the delete first"
  | .keyTaken => "another staged change already owns this key"

def AddressingCause.reason : AddressingCause → String
  | .edit kind => kind.name ++ " carries neither a primary key nor row values"
  | .change kind id => kind.name ++ " " ++ id.text ++ " has neither a primary key nor old values"

def UnsupportedCause.reason : UnsupportedCause → String
  | .nulCharacter => "text contains a NUL character"
  | .nonFinite => "non-finite floats have no literal form"
  | .notDecimal text => Text.quoted text ++ " is not a decimal number"

def SettingsFault.reason : SettingsFault → String
  | .zeroThreshold => "statement_warning_threshold must be at least 1"
  | .storagePrefix value =>
    "storage_key_prefix must be non-empty and contain no ':' (got " ++ Text.quoted value ++ ")"
  | .unknownDialect input => "unknown dialect: " ++ input
  | .unknownEnvironment input => "unknown environment: " ++ input
  | .unreadable => "unreadable"

def Error.message : Error → String
  | .storage e => "storage error: " ++ e.message
  | .invalidChange cause => "core error: invalid change: " ++ cause.reason
  | .conflict table cause => "conflict on " ++ table.displayName ++ ": " ++ cause.reason
  | .addressing table cause =>
    "cannot address row in " ++ table.displayName ++ ": " ++ cause.reason
  | .changeNotFound id => "change not found: " ++ id.text
  | .sessionInactive session => "sandbox is not active for session " ++ session.name
  | .applyInProgress session => "an apply is already in flight for session " ++ session.name
  | .staleScript session =>
    "migration script no longer matches the pending changes of session " ++ session.name
  | .unsupportedValue dialect kind cause =>
    dialect.name ++ " cannot represent " ++ kind ++ " value: " ++ cause.reason
  | .applyFailure message => "apply failed: " ++ message
  | .metadata table reason =>
    "column metadata unavailable for " ++ table.displayName ++ ": " ++ reason
  | .settings fault => "invalid configuration: " ++ fault.reason

/-- The dialect that a user types, or the refusal of an unknown one. -/
def Dialect.read (input : String) : Except Error Dialect :=
  match Dialect.ofInput? input with
  | some d => .ok d
  | none => .error (.settings (.unknownDialect (Text.folded input)))

/-- What is wrong with an edit that changes nothing. -/
def Edit.check (e : Edit) : Except Error Unit :=
  match e with
  | .insert _ values _ =>
    if values.isEmpty then .error (.invalidChange .insertWithoutValues) else .ok ()
  | .update _ _ _ new =>
    if new.isEmpty then .error (.invalidChange .updateWithoutNewValues) else .ok ()
  | .delete .. => .ok ()

end DraftLedger
