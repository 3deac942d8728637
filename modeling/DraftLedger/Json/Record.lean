import DraftLedger.Json

/-!
# Records in JSON

A record is an object with a member for each field.  Reading passes over unknown members, refuses a
field that stands twice, and also takes the fields in order from an array.

* `Json.fields?` : the values of the fields of a record.
* `Json.text?`, `Json.flag?`, `Json.word?`, `Json.list?` : fields of simple types.
* `Json.optional?` : a field that may be missing or null.
-/

set_option autoImplicit false

namespace DraftLedger.Json

/-- The values of the named fields, `none` for a missing one. -/
def fields? (names : List String) : Json → Option (List (Option Json))
  | .object members => names.mapM fun name =>
    match membersNamed name members with
    | [] => some none
    | [value] => some (some value)
    | _ => none
  | .array items =>
    if items.length ≤ names.length then
      some (items.map some ++ List.replicate (names.length - items.length) none)
    else none
  | _ => none

def text? : Json → Option String
  | .string s => some s
  | _ => none

def flag? : Json → Option Bool
  | .bool b => some b
  | _ => none

/-- A natural number below a bound, written as an integer. -/
def word? (bound : Nat) : Json → Option Nat
  | .number n =>
    match n.int? with
    | some i => if 0 ≤ i ∧ i < bound then some i.toNat else none
    | none => none
  | _ => none

/-- The items of an array, all read the same way. -/
def list? {α : Type} (read : Json → Option α) : Json → Option (List α)
  | .array items => items.mapM read
  | _ => none

/-- A field that may be missing or null; a value that is there must be readable. -/
def optional? {α : Type} (read : Json → Option α) : Option Json → Option (Option α)
  | none => some none
  | some .null => some none
  | some j => (read j).map some

/-- A member of an object that is left out when there is no value. -/
def member? (name : String) : Option Json → List (String × Json)
  | none => []
  | some j => [(name, j)]

end DraftLedger.Json
