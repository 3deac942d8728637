import DraftLedger.Dict
import DraftLedger.Error

/-!
# Key-value storage

* `Store` : texts by key, with a switch that makes every call fail.
* `Store.get`, `Store.set`, `Store.remove`, `Store.keysWithPrefix` : the calls.
* `Store.scanKeys`, `Store.selectKeys` : the two ways of listing keys. They differ for a text with a
  NUL character, which no query finds.
-/

set_option autoImplicit false

namespace DraftLedger

/-- How a store finds the keys that start with a text. -/
inductive Listing where
  /-- It walks its keys in order from that text on. -/
  | walk
  /-- It compares the front of every key in a query. -/
  | query
deriving DecidableEq

/-- Texts by key. -/
structure Store where
  entries : Dict String String
  listing : Listing
  /-- The reason for which every call is turned away, if calls are. -/
  refusal : Option String

namespace Store

def empty (listing : Listing) : Store := ⟨Dict.empty, listing, none⟩

/-- Answers a call about a key unless calls are turned away. -/
def answering {α : Type} (s : Store) (key : String) (answer : α) : Except StorageError α :=
  match s.refusal with
  | none => .ok answer
  | some reason => .error (.stale key (.refused reason))

def get (s : Store) (key : String) : Except StorageError (Option String) :=
  s.answering key (s.entries.get? key)

def set (s : Store) (key value : String) : Except StorageError Store :=
  s.answering key { s with entries := s.entries.insert key value }

def remove (s : Store) (key : String) : Except StorageError Store :=
  s.answering key { s with entries := s.entries.erase key }

def startsWith (text start : String) : Bool := start.toList.isPrefixOf text.toList

/-- The keys from `start` on, as long as they start with it. -/
def scanKeys (s : Store) (start : String) : List String :=
  (s.entries.keys.dropWhile fun k => k < start).takeWhile fun k => startsWith k start

/-- The keys whose first characters, as many as `start` has before a NUL, are equal to `start`, in
ascending order. -/
def selectKeys (s : Store) (start : String) : List String :=
  let count := (start.toList.takeWhile fun c => c ≠ '\x00').length
  s.entries.keys.filter fun k => k.toList.take count = start.toList

/-- The keys that start with a text, in ascending order. -/
def keysWithPrefix (s : Store) (start : String) : Except StorageError (List String) :=
  s.answering start
    (match s.listing with
    | .walk => s.scanKeys start
    | .query => s.selectKeys start)

end Store

end DraftLedger
