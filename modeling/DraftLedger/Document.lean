import DraftLedger.Store

/-!
# Documents of sessions

What a session has staged is kept in a store as a document under the name of the session.  A
document tells its version and its session, so that one in the wrong place is found out.

* `Document` : the stored session.
* `Document.render`, `Document.decode` : text and back.
* `Document.load`, `Document.save`, `Document.storedSessions` : documents in a store.
-/

set_option autoImplicit false

namespace DraftLedger

/-- The stored form of a session. -/
structure Document where
  version : UInt32
  session : SessionId
  active : Bool
  changes : List Change

namespace Document

def current (session : SessionId) (active : Bool) (changes : List Change) : Document :=
  ⟨UInt32.ofNat documentVersion, session, active, changes⟩

/-! ## Text -/

def toJson (d : Document) : Json :=
  .object [("version", Json.ofNat d.version.toNat), ("session_id", .string d.session.name),
    ("active", .bool d.active), ("changes", .array (d.changes.map Change.toJson))]

def render (d : Document) : String := d.toJson.render

/-- Reads the tree of a document, which counts as one object with one array of changes around each
change. -/
def ofJson? (j : Json) : Option Document := do
  match ← j.fields? ["version", "session_id", "active", "changes"] with
  | [some version, some session, some active, some changes] =>
    let version ← version.word? UInt32.size
    let session ← session.text?
    let active ← active.flag?
    let changes ← changes.list? (Change.ofJson? (Json.depthLimit - 2))
    some ⟨UInt32.ofNat version, ⟨session⟩, active, changes⟩
  | _ => none

/-- The document that a text spells, whatever its version and session. -/
def read? (raw : String) : Option Document := (Json.read? raw).bind ofJson?

/-- The document under a key, unless it is unreadable, has another version or belongs to another
session. -/
def decode (key raw : String) (expected : SessionId) : Except StorageError Document :=
  match read? raw with
  | none => .error .unreadable
  | some d =>
    if d.version.toNat ≠ documentVersion then .error (.stale key (.version d.version.toNat))
    else if d.session ≠ expected then .error (.stale key (.otherSession d.session))
    else .ok d

/-! ## Documents in a store -/

/-- The start of the keys of all documents. -/
def keyPrefix (space : String) : String := space ++ ":ledger:"

def key (space : String) (session : SessionId) : String := keyPrefix space ++ session.name

/-- The document of a session, if the store has one. -/
def load (store : Store) (space : String) (session : SessionId) :
    Except StorageError (Option Document) :=
  match store.get (key space session) with
  | .error e => .error e
  | .ok none => .ok none
  | .ok (some raw) => (decode (key space session) raw session).map some

/-- Keeps a document in the store; one with nothing worth keeping is taken out instead. -/
def save (store : Store) (space : String) (d : Document) : Except StorageError Store :=
  if !d.active && d.changes.isEmpty then store.remove (key space d.session)
  else store.set (key space d.session) d.render

/-- The sessions with a document in the store, in ascending order. -/
def storedSessions (store : Store) (space : String) : Except StorageError (List SessionId) :=
  (store.keysWithPrefix (keyPrefix space)).map fun keys =>
    keys.map fun k => ⟨String.ofList (k.toList.drop (keyPrefix space).length)⟩

end Document

end DraftLedger
