import DraftLedger.Cell
import DraftLedger.Text.Base64

/-!
# The stored form of cells

A cell is stored as an object with its type and its value.

* `Cell.toJson` : the stored form.
* `Cell.ofJson` : reading it back, with the cause of a refusal.
* `Cell.Tagged`, `Cell.Source` : the forms that a value with a tag may have.
-/

set_option autoImplicit false

namespace DraftLedger.Cell

/-! ## Writing -/

/-- The type of a cell as the stored form names it. -/
def tag : Cell → String
  | .instant _ => "timestamp_tz"
  | c => c.kindName

/-- A floating-point number in the stored form: a number, or a word when it is not finite. -/
def floatToJson (x : Binary64) : Json :=
  if x.isFinite then .number (x.numeral .toEven Json.positional)
  else if x.isNaN then .string "NaN"
  else if x.negative then .string "-Infinity"
  else .string "Infinity"

def chars (cs : List Char) : Json := .string (String.ofList cs)

def tagged (tag : String) (value : Json) : Json := .object [("type", .string tag), ("value", value)]

mutual

def toJson : Cell → Json
  | .null => .object [("type", .string "null")]
  | .boolean b => tagged "boolean" (.bool b)
  | .integer n => tagged "integer" (Json.ofInt n.toInt)
  | .float x => tagged "float" (floatToJson x)
  | .decimal s => tagged "decimal" (.string s)
  | .text s => tagged "text" (.string s)
  | .date d => tagged "date" (chars d.text)
  | .time t => tagged "time" (chars t.text)
  | .timestamp t => tagged "timestamp" (chars (t.text 'T'))
  | .instant t => tagged "timestamp_tz" (chars t.utcText)
  | .uuid u => tagged "uuid" (chars u.text)
  | .bytes b => tagged "bytes" (chars (Text.Base64.encode b))
  | .json v => tagged "json" v.value.toJson
  | .array items => tagged "array" (.array (itemsToJson items))

def itemsToJson : List Cell → List Json
  | [] => []
  | item :: rest => item.toJson :: itemsToJson rest

end

/-! ## Reading -/

/-- Why a stored form is no cell. -/
inductive ReadError where
  /-- A text in the place of a floating-point number that names none. -/
  | invalidFloat (text : String)
  /-- Any other departure from the form. -/
  | malformed

/-- The message of a refusal that has one. -/
def ReadError.message? : ReadError → Option String
  | .invalidFloat s => some ("invalid float: " ++ s)
  | .malformed => none

def orMalformed {α : Type} : Option α → Except ReadError α
  | some a => .ok a
  | none => .error .malformed

/-- The cell of a type other than array from the stored value, if there is one. -/
def scalarOfJson (tag : String) (value : Option Json) : Except ReadError Cell :=
  match tag, value with
  | "null", none => .ok .null
  | "null", some .null => .ok .null
  | "boolean", some (.bool b) => .ok (.boolean b)
  | "integer", some (.number n) =>
    match n.int? with
    | some i =>
      if Int64.minValue.toInt ≤ i ∧ i ≤ Int64.maxValue.toInt then .ok (.integer (Int64.ofInt i))
      else .error .malformed
    | none => .error .malformed
  | "float", some (.number n) => orMalformed ((Json.numberOf? n).map fun n => .float n.toBinary64)
  | "float", some (.string "NaN") => .ok (.float .nan)
  | "float", some (.string "Infinity") => .ok (.float .infinity)
  | "float", some (.string "-Infinity") => .ok (.float .negInfinity)
  | "float", some (.string s) => .error (.invalidFloat s)
  | "decimal", some (.string s) => .ok (.decimal s)
  | "text", some (.string s) => .ok (.text s)
  | "date", some (.string s) => orMalformed ((Date.read? s.toList).map .date)
  | "time", some (.string s) => orMalformed ((TimeOfDay.read? s.toList).map .time)
  | "timestamp", some (.string s) => orMalformed ((Timestamp.read? s.toList).map .timestamp)
  | "timestamp_tz", some (.string s) => orMalformed ((Timestamp.readUtc? s.toList).map .instant)
  | "uuid", some (.string s) => orMalformed ((Uuid.read? s.toList).map .uuid)
  | "bytes", some (.string s) => orMalformed ((Text.Base64.decode? s.toList).map .bytes)
  | "json", some j => orMalformed (j.toOrdered?.map .json)
  | _, _ => .error .malformed

/-- A name that stands for one of several choices: a string, or an object whose only member has
that name and the value null. -/
def choice? : Json → Option String
  | .string s => some s
  | .object [(s, .null)] => some s
  | _ => none

/-- The types of cells, in the order of their numbers. -/
def tags : List String :=
  ["null", "boolean", "integer", "float", "decimal", "text", "date", "time", "timestamp",
    "timestamp_tz", "uuid", "bytes", "json", "array"]

/-- How a stored form is come by. -/
inductive Source where
  /-- It is read as it comes. -/
  | direct
  /-- It came before its type and was held back until the type was known. What is held back may
  name its parts in more ways. -/
  | held
deriving DecidableEq

/-- The type that a member names. In what was held back, the value under the name may also be an
empty object. -/
def memberTag? : Source → Json → Option String
  | .held, .object [(s, .object [])] => some s
  | _, j => choice? j

/-- The type that the first item of a pair names. In what was held back it may be a number. -/
def itemTag? : Source → Json → Option String
  | _, .string s => some s
  | .held, .number n =>
    match n.int? with
    | some i => if 0 ≤ i then tags[i.toNat]? else none
    | none => none
  | _, _ => none

/-- The members of a tagged value that count, in their order. -/
inductive Tagged where
  | tagAlone (tag : Json)
  | tagFirst (tag value : Json)
  | valueFirst (value tag : Json)

/-- Looks for the tag and the value of a tagged value. Other members are passed over. -/
def tagged? (tagName valueName : String) (members : List (String × Json)) : Option Tagged :=
  match members.filter fun m => m.1 = tagName || m.1 = valueName with
  | [(key, tag)] => if key = tagName then some (.tagAlone tag) else none
  | [(first, a), (second, b)] =>
    if first = second then none
    else if first = tagName then some (.tagFirst a b)
    else some (.valueFirst a b)
  | _ => none

/-- Whether a value can be held back: it can be read as a value, and `room` is enough for its
nesting. -/
def canHold (room : Nat) (j : Json) : Bool := j.toValue?.isSome && j.depth ≤ room

/-- The cell of a type other than array, where `room` is enough for the nesting of the value. -/
def scalarWithin (room : Nat) (tag : String) (value : Json) : Except ReadError Cell :=
  if value.depth ≤ room then scalarOfJson tag (some value) else .error .malformed

/-- What a pair was read as, unless more items follow it. A refusal of the pair itself comes first. -/
def withoutMore (rest : List Json) : Except ReadError Cell → Except ReadError Cell
  | .ok c => if rest.isEmpty then .ok c else .error .malformed
  | .error e => .error e

mutual

/-- Reads a stored cell: an object with the type and, after or before it, the value, each once, or
the two in an array. Other members are passed over, other items are not. Of the arrays and objects
that the form is made of, at most `room` may lie in each other. -/
def ofJson (source : Source) (room : Nat) : Json → Except ReadError Cell
  | .object members =>
    match room, tagged? "type" "value" members with
    | room + 1, some (.tagAlone tag) =>
      match if tag.depth ≤ room then memberTag? source tag else none with
      | some tag => scalarOfJson tag none
      | none => .error .malformed
    | room + 1, some (.tagFirst tag value) =>
      match if tag.depth ≤ room then memberTag? source tag else none with
      | some "array" => arrayOfMembers source room members
      | some tag => scalarWithin room tag value
      | none => .error .malformed
    | room + 1, some (.valueFirst value tag) =>
      if canHold room value then
        match if tag.depth ≤ room then memberTag? source tag else none with
        | some "array" => arrayOfMembers .held room members
        | some tag => scalarWithin room tag value
        | none => .error .malformed
      else .error .malformed
    | _, _ => .error .malformed
  | .array (tag :: value :: rest) =>
    match room, itemTag? source tag with
    | room + 1, some "array" => withoutMore rest (arrayOfJson source room value)
    | room + 1, some tag => withoutMore rest (scalarWithin room tag value)
    | _, _ => .error .malformed
  | _ => .error .malformed

/-- The array cell whose items the first member named `value` holds. -/
def arrayOfMembers (source : Source) (room : Nat) :
    List (String × Json) → Except ReadError Cell
  | [] => .error .malformed
  | (key, value) :: rest =>
    if key = "value" then arrayOfJson source room value else arrayOfMembers source room rest

def arrayOfJson (source : Source) (room : Nat) : Json → Except ReadError Cell
  | .array items =>
    match room with
    | 0 => .error .malformed
    | room + 1 =>
      match itemsOfJson source room items with
      | .ok cells => .ok (.array cells)
      | .error e => .error e
  | _ => .error .malformed

/-- Reads stored cells in order; the first refusal counts. -/
def itemsOfJson (source : Source) (room : Nat) : List Json → Except ReadError (List Cell)
  | [] => .ok []
  | item :: rest =>
    match ofJson source room item with
    | .error e => .error e
    | .ok cell =>
      match itemsOfJson source room rest with
      | .ok cells => .ok (cell :: cells)
      | .error e => .error e

end

def storedText (c : Cell) : String := c.toJson.render

end DraftLedger.Cell
