import DraftLedger.Dict
import DraftLedger.Json

/-!
# JSON values

The value of a JSON text forgets how it was written: members stand in the order of their keys, each
key once, and a number is an integer of 64 bits or a finite floating-point number.

* `Json.Number` : the numbers.
* `Json.Value` : the values.
* `Json.toValue?` : the value of a tree, the last of several members with one key winning.
* `Json.Value.toJson` : the tree of a value.
* `Json.Value.Ordered` : members ascend strictly, at every depth.
* `Json.OrderedValue` : a value that is ordered.
-/

set_option autoImplicit false

namespace DraftLedger.Json

/-! ## Numbers -/

/-- The least integer that a JSON number holds as an integer. -/
def leastInteger : Int := -0x8000000000000000

/-- The greatest integer that a JSON number holds as an integer. -/
def greatestInteger : Int := 0xffffffffffffffff

/-- A JSON number: an integer that fits a word of 64 bits, signed or unsigned, or a finite
floating-point number. -/
inductive Number where
  | integer (value : Int) (fits : leastInteger ≤ value ∧ value ≤ greatestInteger)
  | float (value : Binary64) (finite : value.isFinite = true)

/-- The exponents of the leading digit that JSON writes in positional notation. -/
def positional (leading : Int) : Bool := -5 ≤ leading && leading < 16

def Number.numeral : Number → Numeral
  | .integer n _ => Numeral.ofInt n
  | .float x _ => x.numeral .toEven positional

/-- Equality of numbers: an integer never equals a floating-point number, and the two zeros of the
floating-point numbers are equal. -/
def Number.same : Number → Number → Bool
  | .integer m _, .integer n _ => m == n
  | .float x _, .float y _ => x.numericallyEqual y
  | _, _ => false

/-- The number of a numeral: an integer when it is written as one and fits, else the floating-point
number, if that is finite. -/
def numberOf? (n : Numeral) : Option Number :=
  match n.int? with
  | some i =>
    if fits : leastInteger ≤ i ∧ i ≤ greatestInteger then some (.integer i fits) else float? n
  | none => float? n
where
  float? (n : Numeral) : Option Number :=
    match n.binary64? with
    | some x => if finite : x.isFinite = true then some (.float x finite) else none
    | none => none

/-- The floating-point number nearest to a number. -/
def Number.toBinary64 : Number → Binary64
  | .integer n _ => Binary64.ofInt n
  | .float x _ => x

/-! ## Values -/

/-- A JSON value. -/
inductive Value where
  | null
  | bool (value : Bool)
  | number (value : Number)
  | string (value : String)
  | array (items : List Value)
  | object (members : List (String × Value))

instance : Inhabited Value := ⟨.null⟩

mutual

def Value.toJson : Value → Json
  | .null => .null
  | .bool b => .bool b
  | .number n => .number n.numeral
  | .string s => .string s
  | .array items => .array (Value.itemsToJson items)
  | .object members => .object (Value.membersToJson members)

def Value.itemsToJson : List Value → List Json
  | [] => []
  | item :: rest => item.toJson :: Value.itemsToJson rest

def Value.membersToJson : List (String × Value) → List (String × Json)
  | [] => []
  | (key, value) :: rest => (key, value.toJson) :: Value.membersToJson rest

end

mutual

/-- Equality of values, where numbers are compared as numbers. -/
def Value.same : Value → Value → Bool
  | .null, .null => true
  | .bool a, .bool b => a == b
  | .number a, .number b => a.same b
  | .string a, .string b => a == b
  | .array a, .array b => Value.sameItems a b
  | .object a, .object b => Value.sameMembers a b
  | _, _ => false

/-- Equality item by item. -/
def Value.sameItems : List Value → List Value → Bool
  | [], [] => true
  | a :: as, b :: bs => a.same b && Value.sameItems as bs
  | _, _ => false

/-- Equality member by member. -/
def Value.sameMembers : List (String × Value) → List (String × Value) → Bool
  | [], [] => true
  | (k, a) :: as, (l, b) :: bs => k == l && a.same b && Value.sameMembers as bs
  | _, _ => false

end

mutual

/-- Members ascend strictly, at every depth. -/
def Value.Ordered : Value → Prop
  | .array items => Value.ItemsOrdered items
  | .object members =>
    members.Pairwise (fun a b => a.1 < b.1) ∧ Value.MembersOrdered members
  | _ => True

def Value.ItemsOrdered : List Value → Prop
  | [] => True
  | item :: rest => item.Ordered ∧ Value.ItemsOrdered rest

def Value.MembersOrdered : List (String × Value) → Prop
  | [] => True
  | (_, value) :: rest => value.Ordered ∧ Value.MembersOrdered rest

end

/-! ## The value of a tree -/

mutual

/-- The value of a tree, or `none` when a number is too large or a string illegible. -/
def toValue? : Json → Option Value
  | .null => some .null
  | .bool b => some (.bool b)
  | .number n => (numberOf? n).map .number
  | .string s => some (.string s)
  | .array items => (itemsToValues? items).map .array
  | .object members =>
    (membersToValues? members).map fun ms => .object (Dict.ofList ms).entries
  | .illegible => none

def itemsToValues? : List Json → Option (List Value)
  | [] => some []
  | item :: rest =>
    match item.toValue?, itemsToValues? rest with
    | some v, some vs => some (v :: vs)
    | _, _ => none

def membersToValues? : List (String × Json) → Option (List (String × Value))
  | [] => some []
  | (key, value) :: rest =>
    match value.toValue?, membersToValues? rest with
    | some v, some vs => some ((key, v) :: vs)
    | _, _ => none

end

theorem Value.membersOrdered_iff {members : List (String × Value)} :
    Value.MembersOrdered members ↔ ∀ m ∈ members, m.2.Ordered := by
  induction members with
  | nil => simp [Value.MembersOrdered]
  | cons m rest ih =>
    obtain ⟨key, value⟩ := m
    simp [Value.MembersOrdered, ih]

theorem Value.mem_foldl_insert {l : List (String × Value)} {d : Dict String Value}
    {m : String × Value} (h : m ∈ (l.foldl (fun d e => d.insert e.1 e.2) d).entries) :
    m ∈ l ∨ m ∈ d.entries := by
  induction l generalizing d with
  | nil => exact .inr h
  | cons e rest ih =>
    rcases ih h with h | h
    · exact .inl (List.mem_cons_of_mem _ h)
    · rcases Dict.mem_insertEntry h with h | h
      · exact .inl (h ▸ List.mem_cons_self)
      · exact .inr h

mutual

theorem ordered_of_toValue? {j : Json} {v : Value} (h : j.toValue? = some v) : v.Ordered := by
  match j with
  | .illegible => simp [toValue?] at h
  | .null | .bool _ | .string _ => simp [toValue?] at h; subst h; simp [Value.Ordered]
  | .number n =>
    simp only [toValue?, Option.map_eq_some_iff] at h
    obtain ⟨m, -, rfl⟩ := h
    simp [Value.Ordered]
  | .array items =>
    simp only [toValue?, Option.map_eq_some_iff] at h
    obtain ⟨vs, hvs, rfl⟩ := h
    simpa [Value.Ordered] using itemsOrdered_of_itemsToValues? hvs
  | .object members =>
    simp only [toValue?, Option.map_eq_some_iff] at h
    obtain ⟨ms, hms, rfl⟩ := h
    refine ⟨(Dict.ofList ms).ascending, Value.membersOrdered_iff.2 fun m hm => ?_⟩
    rcases Value.mem_foldl_insert hm with hm | hm
    · exact Value.membersOrdered_iff.1 (membersOrdered_of_membersToValues? hms) m hm
    · simp [Dict.empty] at hm

theorem itemsOrdered_of_itemsToValues? {items : List Json} {vs : List Value}
    (h : itemsToValues? items = some vs) : Value.ItemsOrdered vs := by
  match items with
  | [] => simp [itemsToValues?] at h; subst h; simp [Value.ItemsOrdered]
  | item :: rest =>
    simp only [itemsToValues?] at h
    split at h
    · next v ws hv hws =>
      cases h
      exact ⟨ordered_of_toValue? hv, itemsOrdered_of_itemsToValues? hws⟩
    · cases h

theorem membersOrdered_of_membersToValues? {members : List (String × Json)}
    {vs : List (String × Value)} (h : membersToValues? members = some vs) :
    Value.MembersOrdered vs := by
  match members with
  | [] => simp [membersToValues?] at h; subst h; simp [Value.MembersOrdered]
  | (key, value) :: rest =>
    simp only [membersToValues?] at h
    split at h
    · next v ws hv hws =>
      cases h
      exact ⟨ordered_of_toValue? hv, membersOrdered_of_membersToValues? hws⟩
    · cases h

end

/-! ## Ordered values -/

/-- A JSON value whose members are in order. -/
structure OrderedValue where
  value : Value
  ordered : value.Ordered

/-- Ordered values are compared as values. -/
def OrderedValue.same (a b : OrderedValue) : Bool := a.value.same b.value

/-- The ordered value of a tree, if it has a value. -/
def toOrdered? (j : Json) : Option OrderedValue :=
  match h : j.toValue? with
  | some v => some ⟨v, ordered_of_toValue? h⟩
  | none => none

def Value.text (v : Value) : List Char := v.toJson.text

end DraftLedger.Json
