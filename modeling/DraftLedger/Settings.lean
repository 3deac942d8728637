import DraftLedger.Error
import DraftLedger.Page
import DraftLedger.Toml

/-!
# Settings

* `Settings` : what an engine can be told.
* `Settings.check` : which settings stand.
* `Settings.ofJson?`, `Settings.ofToml` : the settings of a record and of a text.
-/

set_option autoImplicit false

namespace DraftLedger

/-- What an engine can be told. -/
structure Settings where
  /-- How rows staged for deletion are shown. -/
  deleteDisplay : DeleteDisplay
  /-- Scripts with more statements carry a warning. -/
  threshold : Nat
  /-- The space of the documents in the store. -/
  storagePrefix : String

namespace Settings

/-- The settings of an engine that is told nothing. -/
def default : Settings := ⟨.strikethrough, 500, "sandbox"⟩

/-- Whether a space for documents keeps them apart: it has a name, without a colon. -/
def isSpaceName (s : String) : Bool := !s.isEmpty && !s.toList.contains ':'

/-- Refuses a threshold of zero, and a space for documents that does not keep them apart. -/
def check (s : Settings) : Except Error Unit :=
  if s.threshold = 0 then .error (.settings .zeroThreshold)
  else if isSpaceName s.storagePrefix then .ok ()
  else .error (.settings (.storagePrefix s.storagePrefix))

/-- The way of showing deleted rows that a value names: by its word, or by a table whose only entry
has the word as its name and nothing in it. -/
def display? : Toml.Value → Option DeleteDisplay
  | .string word => DeleteDisplay.ofName? word
  | .table _ [(word, content)] => if content.isEmpty then DeleteDisplay.ofName? word else none
  | _ => none

/-- The settings after one more of them, unless its name or value is unknown. -/
def withValue? (s : Settings) (name : String) (value : Toml.Value) : Option Settings :=
  match name, value with
  | "delete_display", value => (display? value).map fun d => { s with deleteDisplay := d }
  | "statement_warning_threshold", .integer n =>
    if 0 ≤ n then some { s with threshold := n.toNat } else none
  | "storage_key_prefix", .string space => some { s with storagePrefix := space }
  | _, _ => none

def names : List String := ["delete_display", "statement_warning_threshold", "storage_key_prefix"]

def toJson (s : Settings) : Json :=
  .object [("delete_display", .string s.deleteDisplay.name),
    ("statement_warning_threshold", Json.ofNat s.threshold),
    ("storage_key_prefix", .string s.storagePrefix)]

/-- Whether every member of an object is a setting. -/
def onlySettings : Json → Bool
  | .object members => members.all fun m => names.contains m.1
  | _ => true

/-- A field with a default for a missing one. -/
def fieldOr {α : Type} (missing : α) (read : Json → Option α) : Option Json → Option α
  | none => some missing
  | some j => read j

/-- Reads stored settings; those that are missing have their defaults, and others are refused. -/
def ofJson? (j : Json) : Option Settings := do
  match ← (if onlySettings j then j.fields? names else none) with
  | [display, threshold, space] =>
    some {
      deleteDisplay := ←
        fieldOr default.deleteDisplay (fun j => (Cell.choice? j).bind DeleteDisplay.ofName?) display
      threshold := ← fieldOr default.threshold (Json.word? UInt64.size) threshold
      storagePrefix := ← fieldOr default.storagePrefix Json.text? space }
  | _ => none

/-- The settings of a text; those that are not in it have their defaults. -/
def ofToml (text : String) : Except Error Settings :=
  match (Toml.read? text).bind fun table =>
      table.foldlM (fun s e => s.withValue? e.1 e.2) default with
  | none => .error (.settings .unreadable)
  | some s => s.check.map fun _ => s

end Settings

end DraftLedger
