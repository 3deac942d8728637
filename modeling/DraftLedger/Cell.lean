import DraftLedger.Binary64
import DraftLedger.Calendar
import DraftLedger.Json.Value
import DraftLedger.Uuid

/-!
# Cells

The value of one column of one row, with its database type.

* `Cell` : the values.
* `Cell.same` : when two cells count as equal.
* `Cell.kindName` : the type as messages name it.
* `Cell.view` : the value as a plain JSON value, for display and for databases without the type.
-/

set_option autoImplicit false

namespace DraftLedger

/-- A typed value. A decimal keeps its text, and an instant is a timestamp in universal time. -/
inductive Cell where
  | null
  | boolean (value : Bool)
  | integer (value : Int64)
  | float (value : Binary64)
  | decimal (text : String)
  | text (value : String)
  | date (value : Date)
  | time (value : TimeOfDay)
  | timestamp (value : Timestamp)
  | instant (value : Timestamp)
  | uuid (value : Uuid)
  | bytes (value : List UInt8)
  | json (value : Json.OrderedValue)
  | array (items : List Cell)

instance : Inhabited Cell := ⟨.null⟩

namespace Cell

mutual

/-- Equality of cells: the same type and the same value. Floating-point cells are equal when their
words are, decimals when their texts are, JSON cells when their values are. -/
def same : Cell → Cell → Bool
  | .null, .null => true
  | .boolean a, .boolean b => a == b
  | .integer a, .integer b => a == b
  | .float a, .float b => a == b
  | .decimal a, .decimal b => a == b
  | .text a, .text b => a == b
  | .date a, .date b => a == b
  | .time a, .time b => a == b
  | .timestamp a, .timestamp b => a == b
  | .instant a, .instant b => a == b
  | .uuid a, .uuid b => a == b
  | .bytes a, .bytes b => a == b
  | .json a, .json b => a.same b
  | .array a, .array b => sameItems a b
  | _, _ => false

/-- Equality item by item. -/
def sameItems : List Cell → List Cell → Bool
  | [], [] => true
  | a :: as, b :: bs => a.same b && sameItems as bs
  | _, _ => false

end

instance : BEq Cell := ⟨same⟩

def isNull : Cell → Bool
  | .null => true
  | _ => false

def asText? : Cell → Option String
  | .text s => some s
  | _ => none

def asInteger? : Cell → Option Int64
  | .integer n => some n
  | _ => none

def kindName : Cell → String
  | .null => "null"
  | .boolean _ => "boolean"
  | .integer _ => "integer"
  | .float _ => "float"
  | .decimal _ => "decimal"
  | .text _ => "text"
  | .date _ => "date"
  | .time _ => "time"
  | .timestamp _ => "timestamp"
  | .instant _ => "timestamptz"
  | .uuid _ => "uuid"
  | .bytes _ => "bytes"
  | .json _ => "json"
  | .array _ => "array"

/-! ## The plain JSON value -/

theorem leastInteger_le_toInt (n : Int64) :
    Json.leastInteger ≤ n.toInt ∧ n.toInt ≤ Json.greatestInteger := by
  have low := n.le_toInt
  have high := n.toInt_lt
  simp only [Json.leastInteger, Json.greatestInteger]
  omega

def integerView (n : Int64) : Json.Value := .number (.integer n.toInt (leastInteger_le_toInt n))

/-- A floating-point number as a JSON value, null when it is not finite. -/
def floatView (x : Binary64) : Json.Value :=
  if finite : x.isFinite = true then .number (.float x finite) else .null

/-- A decimal as a JSON number when its whole text is one in the grammar of JSON and not too large,
else as a string. -/
def decimalView (s : String) : Json.Value :=
  match (Numeral.ofText? s.toList).bind Json.numberOf? with
  | some n => .number n
  | none => .string s

def stringView (cs : List Char) : Json.Value := .string (String.ofList cs)

mutual

def view : Cell → Json.Value
  | .null => .null
  | .boolean b => .bool b
  | .integer n => integerView n
  | .float x => floatView x
  | .decimal s => decimalView s
  | .text s => .string s
  | .date d => stringView d.text
  | .time t => stringView t.text
  | .timestamp t => stringView (t.text 'T')
  | .instant t => stringView t.utcText
  | .uuid u => stringView u.text
  | .bytes b => stringView ('\\' :: 'x' :: Text.hexBytes Text.hexDigit b)
  | .json v => v.value
  | .array items => .array (itemsView items)

def itemsView : List Cell → List Json.Value
  | [] => []
  | item :: rest => item.view :: itemsView rest

end

end Cell

end DraftLedger
