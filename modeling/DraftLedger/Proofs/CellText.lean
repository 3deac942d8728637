import DraftLedger.Proofs.CalendarText
import DraftLedger.Proofs.JsonReading

/-!
# Cells read back

A cell that has been written is read back as it was, if its text is not nested too deeply and its
floating-point numbers are read back, each by itself.  Only what kind of not-a-number a cell held is
lost.

* `Binary64.ReadsBack` : a floating-point number is read back.
* `Json.Value.toValue?_toJson` : JSON values read back.
* `Cell.withOneNaN` : the cell that is read back.
* `Cell.ofJson_toJson` : a cell is read back exactly when there is room for its nesting.
-/

set_option autoImplicit false

namespace DraftLedger

/-! ## Numbers -/

/-- The text of the number, if it is finite, is read as the number again. -/
def Binary64.ReadsBack (x : Binary64) : Prop :=
  ∀ finite : x.isFinite = true,
    (Numeral.ofText? ((x.numeral .toEven Json.positional).text ['+'])).bind Json.numberOf? =
      some (.float x finite)

theorem Binary64.ReadsBack.spec {x : Binary64} (h : x.ReadsBack) (finite : x.isFinite = true) :
    (x.numeral .toEven Json.positional).Grammatical ∧
      Json.numberOf? (x.numeral .toEven Json.positional) = some (.float x finite) := by
  obtain ⟨n, read, number⟩ := Option.bind_eq_some_iff.1 (h finite)
  obtain ⟨rfl, grammatical⟩ := Numeral.grammatical_of_ofText? (digital_numeral _ _ x) read
  exact ⟨grammatical, number⟩

theorem Numeral.int?_ofInt (n : Int) : (ofInt n).int? = some n := by
  simp only [int?, ofInt, and_self, if_true, Text.ofDecimal_decimal]
  by_cases negative : n < 0
  · have nonzero : n.natAbs ≠ 0 := by omega
    have value : -(n.natAbs : Int) = n := by omega
    simp only [negative, decide_true, if_true, nonzero, if_false, value]
  · have value : (n.natAbs : Int) = n := by omega
    simp [negative, value]

theorem Json.numberOf?_ofInt {n : Int} (fits : leastInteger ≤ n ∧ n ≤ greatestInteger) :
    numberOf? (Numeral.ofInt n) = some (.integer n fits) := by
  simp only [numberOf?, Numeral.int?_ofInt, fits, and_self, dif_pos]

theorem Binary64.eq_infinity {x : Binary64} (infinite : x.isFinite = false)
    (number : x.isNaN = false) : x = if x.negative then negInfinity else infinity := by
  have size : x.magnitude = infinityMagnitude := by
    have low := of_decide_eq_false infinite
    have high := of_decide_eq_false number
    omega
  obtain ⟨bits⟩ := x
  have bound : bits.toNat < 2 ^ 64 := bits.toNat_lt
  have size' : bits.toNat % 0x8000000000000000 = 0x7ff0000000000000 := size
  cases negative : Binary64.negative ⟨bits⟩ with
  | true =>
    have high : 0x8000000000000000 ≤ bits.toNat := of_decide_eq_true negative
    have value : bits.toNat = 0xfff0000000000000 := by omega
    exact congrArg Binary64.mk (UInt64.toNat_inj.1 value)
  | false =>
    have low : ¬ 0x8000000000000000 ≤ bits.toNat := of_decide_eq_false negative
    have value : bits.toNat = 0x7ff0000000000000 := by omega
    exact congrArg Binary64.mk (UInt64.toNat_inj.1 value)

/-! ## JSON values -/

namespace Json

mutual

/-- The floating-point numbers in a JSON value. -/
def Value.floats : Value → List Binary64
  | .number (.float x _) => [x]
  | .array items => Value.itemsFloats items
  | .object members => Value.membersFloats members
  | _ => []

def Value.itemsFloats : List Value → List Binary64
  | [] => []
  | item :: rest => item.floats ++ Value.itemsFloats rest

def Value.membersFloats : List (String × Value) → List Binary64
  | [] => []
  | (_, value) :: rest => value.floats ++ Value.membersFloats rest

end

mutual

theorem Value.toJson_readable (v : Value) (h : ∀ x ∈ v.floats, x.ReadsBack) :
    v.toJson.Readable := by
  match v with
  | .null | .bool _ | .string _ => trivial
  | .number (.integer n _) => exact ofInt_readable n
  | .number (.float x finite) => exact ((h x (by simp [Value.floats])).spec finite).1
  | .array items => exact Value.itemsToJson_readable items h
  | .object members => exact Value.membersToJson_readable members h

theorem Value.itemsToJson_readable (items : List Value)
    (h : ∀ x ∈ Value.itemsFloats items, x.ReadsBack) :
    ItemsReadable (Value.itemsToJson items) := by
  match items with
  | [] => trivial
  | item :: rest =>
    obtain ⟨first, others⟩ := List.forall_mem_append.1 h
    exact ⟨Value.toJson_readable item first, Value.itemsToJson_readable rest others⟩

theorem Value.membersToJson_readable (members : List (String × Value))
    (h : ∀ x ∈ Value.membersFloats members, x.ReadsBack) :
    MembersReadable (Value.membersToJson members) := by
  match members with
  | [] => trivial
  | (_, value) :: rest =>
    obtain ⟨first, others⟩ := List.forall_mem_append.1 h
    exact ⟨Value.toJson_readable value first, Value.membersToJson_readable rest others⟩

end

end Json

theorem Dict.ofList_ascending {κ ν : Type} [LinearKey κ] {l : List (κ × ν)}
    (ascending : l.Pairwise fun a b => a.1 < b.1) : Dict.ofList l = ⟨l, ascending⟩ := by
  refine Dict.ext_get? fun k => ?_
  rw [Dict.ofList, Dict.get?_foldl_insert ascending, Dict.get?_empty, Option.or_none]
  rfl

namespace Json

mutual

/-- A value whose members are in order is the value of its tree. -/
theorem Value.toValue?_toJson (v : Value) (ordered : v.Ordered)
    (h : ∀ x ∈ v.floats, x.ReadsBack) : v.toJson.toValue? = some v := by
  match v with
  | .null | .bool _ | .string _ => rfl
  | .number (.integer n fits) =>
    simp only [Value.toJson, toValue?, Number.numeral, numberOf?_ofInt fits, Option.map_some]
  | .number (.float x finite) =>
    have read := ((h x (by simp [Value.floats])).spec finite).2
    simp only [Value.toJson, toValue?, Number.numeral, read, Option.map_some]
  | .array items =>
    have read := Value.itemsToValues?_toJson items ordered h
    simp only [Value.toJson, toValue?, read, Option.map_some]
  | .object members =>
    have read := Value.membersToValues?_toJson members ordered.2 h
    simp only [Value.toJson, toValue?, read, Option.map_some, Dict.ofList_ascending ordered.1]

theorem Value.itemsToValues?_toJson (items : List Value) (ordered : Value.ItemsOrdered items)
    (h : ∀ x ∈ Value.itemsFloats items, x.ReadsBack) :
    itemsToValues? (Value.itemsToJson items) = some items := by
  match items with
  | [] => rfl
  | item :: rest =>
    obtain ⟨first, others⟩ := List.forall_mem_append.1 h
    simp only [Value.itemsToJson, itemsToValues?, Value.toValue?_toJson item ordered.1 first,
      Value.itemsToValues?_toJson rest ordered.2 others]

theorem Value.membersToValues?_toJson (members : List (String × Value))
    (ordered : Value.MembersOrdered members)
    (h : ∀ x ∈ Value.membersFloats members, x.ReadsBack) :
    membersToValues? (Value.membersToJson members) = some members := by
  match members with
  | [] => rfl
  | (key, value) :: rest =>
    obtain ⟨first, others⟩ := List.forall_mem_append.1 h
    simp only [Value.membersToJson, membersToValues?, Value.toValue?_toJson value ordered.1 first,
      Value.membersToValues?_toJson rest ordered.2 others]

end

theorem toOrdered?_toJson (v : OrderedValue) (h : ∀ x ∈ v.value.floats, x.ReadsBack) :
    v.value.toJson.toOrdered? = some v := by
  have read := v.value.toValue?_toJson v.ordered h
  unfold toOrdered?
  split
  · next v' found =>
    rw [read] at found
    cases found
    rfl
  · next none =>
    rw [read] at none
    cases none

end Json

/-! ## Bytes -/

namespace Text.Base64

theorem symbol_ne_padding : ∀ n < 64, symbol n ≠ '=' := by decide

theorem ofNat_toNat_of_eq {n : Nat} {b : UInt8} (h : n = b.toNat) : UInt8.ofNat n = b := by
  rw [h, UInt8.ofNat_toNat]

theorem decodeLast?_full (a b c : UInt8) :
    decodeLast? (symbol (a.toNat / 4)) (symbol (a.toNat % 4 * 16 + b.toNat / 16))
      (symbol (b.toNat % 16 * 4 + c.toNat / 64)) (symbol (c.toNat % 64)) = some [a, b, c] := by
  have ha := a.toNat_lt
  have hb := b.toNat_lt
  have hc := c.toNat_lt
  have last : symbol (c.toNat % 64) ≠ '=' := symbol_ne_padding _ (by omega)
  simp only [decodeLast?, value?_symbol (a.toNat / 4) (by omega),
    value?_symbol (a.toNat % 4 * 16 + b.toNat / 16) (by omega),
    value?_symbol (b.toNat % 16 * 4 + c.toNat / 64) (by omega),
    value?_symbol (c.toNat % 64) (by omega), last, if_false, Option.bind_eq_bind, Option.bind_some]
  rw [ofNat_toNat_of_eq (show _ = a.toNat by omega), ofNat_toNat_of_eq (show _ = b.toNat by omega),
    ofNat_toNat_of_eq (show _ = c.toNat by omega)]

theorem decode?_encode (bytes : List UInt8) : decode? (encode bytes) = some bytes := by
  induction bytes using encode.induct with
  | case1 => rfl
  | case2 a =>
    have ha := a.toNat_lt
    have spare : a.toNat % 4 * 16 % 16 = 0 := by omega
    simp only [encode, decode?, decodeLast?, value?_symbol (a.toNat / 4) (by omega),
      value?_symbol (a.toNat % 4 * 16) (by omega), spare, if_true, Option.bind_eq_bind,
      Option.bind_some]
    rw [ofNat_toNat_of_eq (show _ = a.toNat by omega)]
  | case3 a b =>
    have ha := a.toNat_lt
    have hb := b.toNat_lt
    have third : symbol (b.toNat % 16 * 4) ≠ '=' := symbol_ne_padding _ (by omega)
    have spare : b.toNat % 16 * 4 % 4 = 0 := by omega
    simp only [encode, decode?, decodeLast?, value?_symbol (a.toNat / 4) (by omega),
      value?_symbol (a.toNat % 4 * 16 + b.toNat / 16) (by omega),
      value?_symbol (b.toNat % 16 * 4) (by omega), third, spare, if_true, if_false,
      Option.bind_eq_bind, Option.bind_some]
    rw [ofNat_toNat_of_eq (show _ = a.toNat by omega), ofNat_toNat_of_eq (show _ = b.toNat by omega)]
  | case4 a b c rest ih =>
    have ha := a.toNat_lt
    have hb := b.toNat_lt
    have hc := c.toNat_lt
    cases more : encode rest with
    | nil =>
      rw [more] at ih
      cases ih
      rw [encode, more]
      exact decodeLast?_full a b c
    | cons d ds =>
      rw [more] at ih
      rw [encode, more, decode?, ih]
      · simp only [value?_symbol (a.toNat / 4) (by omega),
          value?_symbol (a.toNat % 4 * 16 + b.toNat / 16) (by omega),
          value?_symbol (b.toNat % 16 * 4 + c.toNat / 64) (by omega),
          value?_symbol (c.toNat % 64) (by omega), Option.bind_eq_bind, Option.bind_some]
        rw [ofNat_toNat_of_eq (show _ = a.toNat by omega),
          ofNat_toNat_of_eq (show _ = b.toNat by omega),
          ofNat_toNat_of_eq (show _ = c.toNat by omega)]
      · exact List.cons_ne_nil d ds

end Text.Base64

/-! ## Cells -/

namespace Cell

mutual

/-- The floating-point numbers in a cell. -/
def floats : Cell → List Binary64
  | .float x => [x]
  | .json v => v.value.floats
  | .array items => itemsFloats items
  | _ => []

def itemsFloats : List Cell → List Binary64
  | [] => []
  | item :: rest => item.floats ++ itemsFloats rest

end

mutual

/-- The cell with the one not-a-number that is read in the place of all others. -/
def withOneNaN : Cell → Cell
  | .float x => .float (if x.isNaN then .nan else x)
  | .array items => .array (itemsWithOneNaN items)
  | c => c

def itemsWithOneNaN : List Cell → List Cell
  | [] => []
  | item :: rest => item.withOneNaN :: itemsWithOneNaN rest

end

theorem tagged_readable {tag : String} {value : Json} (h : value.Readable) :
    (tagged tag value).Readable :=
  ⟨trivial, h, trivial⟩

theorem floatToJson_readable {x : Binary64} (h : x.ReadsBack) : (floatToJson x).Readable := by
  unfold floatToJson
  split
  · next finite => exact (h.spec finite).1
  · split
    · trivial
    · split <;> trivial

mutual

theorem toJson_readable (c : Cell) (h : ∀ x ∈ c.floats, x.ReadsBack) : c.toJson.Readable := by
  match c with
  | .null => exact ⟨trivial, trivial⟩
  | .integer n => exact tagged_readable (Json.ofInt_readable _)
  | .float x => exact tagged_readable (floatToJson_readable (h x (by simp [floats])))
  | .json v => exact tagged_readable (v.value.toJson_readable h)
  | .array items => exact tagged_readable (itemsToJson_readable items h)
  | .boolean _ | .decimal _ | .text _ | .date _ | .time _ | .timestamp _ | .instant _ | .uuid _
  | .bytes _ => exact tagged_readable trivial

theorem itemsToJson_readable (items : List Cell) (h : ∀ x ∈ itemsFloats items, x.ReadsBack) :
    Json.ItemsReadable (itemsToJson items) := by
  match items with
  | [] => trivial
  | item :: rest =>
    obtain ⟨first, others⟩ := List.forall_mem_append.1 h
    exact ⟨toJson_readable item first, itemsToJson_readable rest others⟩

end

/-! ### Reading one cell -/

theorem depth_tagged (tag : String) (value : Json) :
    (tagged tag value).depth = value.depth + 1 := by
  simp [tagged, Json.depth, Json.membersDepth]

/-- A value with a tag other than that of arrays is read as a cell if there is room for it. -/
theorem ofJson_tagged {tag : String} (value : Json) (room : Nat) (notArray : tag ≠ "array") :
    ofJson .direct room (tagged tag value) =
      if (tagged tag value).depth ≤ room then scalarOfJson tag (some value)
      else .error .malformed := by
  cases room with
  | zero =>
    rw [depth_tagged]
    simp [tagged, ofJson]
  | succ room =>
    have parts : tagged? "type" "value" [("type", Json.string tag), ("value", value)] =
        some (.tagFirst (.string tag) value) := by simp [tagged?]
    have named : memberTag? .direct (.string tag) = some tag := rfl
    have within : ofJson .direct (room + 1) (tagged tag value) = scalarWithin room tag value := by
      simp only [tagged, ofJson, parts, named, Json.depth, Nat.zero_le, if_true]
    rw [within, depth_tagged, scalarWithin]
    simp only [Nat.add_le_add_iff_right]

theorem ofJson_tagged_array (value : Json) (room : Nat) :
    ofJson .direct (room + 1) (tagged "array" value) = arrayOfJson .direct room value := by
  simp [tagged, ofJson, tagged?, memberTag?, choice?, Json.depth, arrayOfMembers]

theorem scalarOfJson_float {x : Binary64} (h : x.ReadsBack) :
    scalarOfJson "float" (some (floatToJson x)) = .ok (.float (if x.isNaN then .nan else x)) := by
  unfold floatToJson
  cases finite : x.isFinite with
  | true =>
    have number : x.isNaN = false := by
      have small := of_decide_eq_true finite
      exact decide_eq_false (by omega)
    simp only [if_true, scalarOfJson, (h.spec finite).2, number]
    rfl
  | false =>
    cases number : x.isNaN with
    | true => rfl
    | false =>
      have same := Binary64.eq_infinity finite number
      cases negative : x.negative with
      | true =>
        rw [negative] at same
        rw [same]
        rfl
      | false =>
        rw [negative] at same
        rw [same]
        rfl

theorem scalarOfJson_integer (n : Int64) :
    scalarOfJson "integer" (some (Json.ofInt n.toInt)) = .ok (.integer n) := by
  have fits : Int64.minValue.toInt ≤ n.toInt ∧ n.toInt ≤ Int64.maxValue.toInt :=
    ⟨n.minValue_le_toInt, n.toInt_le⟩
  simp only [scalarOfJson, Json.ofInt, Numeral.int?_ofInt, fits, and_self, if_true,
    Int64.ofInt_toInt]

mutual

/-- A cell that has been written is read back if there is room for its nesting, and else not. -/
theorem ofJson_toJson (c : Cell) (room : Nat) (h : ∀ x ∈ c.floats, x.ReadsBack) :
    ofJson .direct room c.toJson =
      if c.toJson.depth ≤ room then .ok c.withOneNaN else .error .malformed := by
  have scalar {tag : String} {value : Json} (tree : c.toJson = tagged tag value)
      (notArray : tag ≠ "array") (read : scalarOfJson tag (some value) = .ok c.withOneNaN) :
      ofJson .direct room c.toJson =
        if c.toJson.depth ≤ room then .ok c.withOneNaN else .error .malformed := by
    rw [tree, ofJson_tagged value room notArray, read]
  match c with
  | .null =>
    cases room with
    | zero => rfl
    | succ room =>
      simp [toJson, ofJson, tagged?, memberTag?, choice?, scalarOfJson, withOneNaN, Json.depth,
        Json.membersDepth]
  | .boolean b => exact scalar rfl (by decide) rfl
  | .integer n => exact scalar rfl (by decide) (scalarOfJson_integer n)
  | .float x => exact scalar rfl (by decide) (scalarOfJson_float (h x (by simp [floats])))
  | .decimal s => exact scalar rfl (by decide) rfl
  | .text s => exact scalar rfl (by decide) rfl
  | .date d =>
    refine scalar rfl (by decide) ?_
    simp only [scalarOfJson, chars, String.toList_ofList, Date.read?_text]
    rfl
  | .time t =>
    refine scalar rfl (by decide) ?_
    simp only [scalarOfJson, chars, String.toList_ofList, TimeOfDay.read?_text]
    rfl
  | .timestamp t =>
    refine scalar rfl (by decide) ?_
    simp only [scalarOfJson, chars, String.toList_ofList, Timestamp.read?_text]
    rfl
  | .instant t =>
    refine scalar rfl (by decide) ?_
    simp only [scalarOfJson, chars, String.toList_ofList, Timestamp.readUtc?_utcText]
    rfl
  | .uuid u =>
    refine scalar rfl (by decide) ?_
    simp only [scalarOfJson, chars, String.toList_ofList, Uuid.read?_text]
    rfl
  | .bytes b =>
    refine scalar rfl (by decide) ?_
    simp only [scalarOfJson, chars, String.toList_ofList, Text.Base64.decode?_encode]
    rfl
  | .json v =>
    refine scalar rfl (by decide) ?_
    simp only [scalarOfJson, Json.toOrdered?_toJson v h]
    rfl
  | .array items =>
    have depth : (toJson (.array items)).depth = Json.itemsDepth (itemsToJson items) + 2 := by
      rw [toJson, depth_tagged, Json.depth]
    rw [depth, toJson]
    match room with
    | 0 => rfl
    | 1 =>
      rw [ofJson_tagged_array]
      rfl
    | room + 2 =>
      rw [ofJson_tagged_array, arrayOfJson]
      simp only [itemsOfJson_toJson items room h, Nat.add_le_add_iff_right]
      by_cases fits : Json.itemsDepth (itemsToJson items) ≤ room
      · simp only [if_pos fits, withOneNaN]
      · simp only [if_neg fits]

theorem itemsOfJson_toJson (items : List Cell) (room : Nat)
    (h : ∀ x ∈ itemsFloats items, x.ReadsBack) :
    itemsOfJson .direct room (itemsToJson items) =
      if Json.itemsDepth (itemsToJson items) ≤ room then .ok (itemsWithOneNaN items)
      else .error .malformed := by
  match items with
  | [] => rfl
  | item :: rest =>
    obtain ⟨first, others⟩ := List.forall_mem_append.1 h
    simp only [itemsToJson, itemsOfJson, ofJson_toJson item room first,
      itemsOfJson_toJson rest room others, Json.itemsDepth, Nat.max_le, itemsWithOneNaN]
    by_cases fits : item.toJson.depth ≤ room
    · by_cases fit : Json.itemsDepth (itemsToJson rest) ≤ room
      · simp [fits, fit]
      · simp [fits, fit]
    · simp [fits]

end

end Cell

end DraftLedger
