import DraftLedger.Document
import DraftLedger.Proofs.JsonText
import DraftLedger.Proofs.Rows
import Mathlib.Data.List.Forall2

/-!
# What a document is read back as

A session that is read back from its document has the changes that were written, one for one, with
their identifiers, kinds and tables.  The cells are read back each by itself, and a floating-point
cell may come back as another number.

* `Document.toJson_plain` : a document is written as a plain tree.
* `Change.ReadsAs` : the change that is read back for a written one.
* `Document.changes_of_read?` : the changes of a document that is read back.
-/

set_option autoImplicit false

namespace DraftLedger

/-! ## Written numerals are made of digits -/

theorem Text.decimal_ne_nil (n : Nat) : Text.decimal n ≠ [] := by
  simp [Text.decimal]

namespace Numeral

theorem digital_ofInt (n : Int) : (ofInt n).Digital where
  nonempty := Text.decimal_ne_nil _
  whole _ h := Text.isDigit_of_mem_decimal h
  fraction _ h := by cases h
  exponent _ h := by cases h
  exponentNonempty _ h := by cases h

theorem isDigit_of_mem_zeros {n : Nat} {c : Char} (h : c ∈ List.replicate n '0') :
    c.isDigit = true := by
  rw [(List.mem_replicate.1 h).2]
  decide

theorem digital_layOut (positional : Int → Bool) (negative : Bool) {digits : List Char}
    (exponent : Int) (nonempty : digits ≠ []) (all : ∀ c ∈ digits, c.isDigit = true) :
    (layOut positional negative digits exponent).Digital := by
  have zero : ∀ c ∈ ['0'], c.isDigit = true := fun c hc =>
    isDigit_of_mem_zeros (n := 1) hc
  unfold layOut
  simp only
  split
  · split
    · refine ⟨by simp [nonempty], fun c hc => ?_, zero, nofun, nofun⟩
      rcases List.mem_append.1 hc with hc | hc
      · exact all c hc
      · exact isDigit_of_mem_zeros hc
    · split
      · refine ⟨by simpa using nonempty, fun c hc => all c (List.mem_of_mem_take hc),
          fun c hc => all c (List.mem_of_mem_drop hc), nofun, nofun⟩
      · refine ⟨by simp, zero, fun c hc => ?_, nofun, nofun⟩
        rcases List.mem_append.1 hc with hc | hc
        · exact isDigit_of_mem_zeros hc
        · exact all c hc
  · refine ⟨by simpa using nonempty, fun c hc => all c (List.mem_of_mem_take hc),
      fun c hc => all c (List.mem_of_mem_drop hc), fun e he c hc => ?_, fun e he => ?_⟩
    · obtain rfl := Option.some.inj he
      exact Text.isDigit_of_mem_decimal hc
    · obtain rfl := Option.some.inj he
      exact Text.decimal_ne_nil _

end Numeral

theorem Binary64.digital_numeral (tie : Binary64.Tie) (positional : Int → Bool) (x : Binary64) :
    (x.numeral tie positional).Digital := by
  unfold Binary64.numeral
  split
  · have zero : ∀ c ∈ ['0'], c.isDigit = true := fun c hc =>
      Numeral.isDigit_of_mem_zeros (n := 1) hc
    exact ⟨by simp, zero, zero, nofun, nofun⟩
  · exact Numeral.digital_layOut _ _ _ (Text.decimal_ne_nil _)
      fun _ h => Text.isDigit_of_mem_decimal h

/-! ## Written trees are plain -/

namespace Json

theorem itemsPlain_iff {items : List Json} : ItemsPlain items ↔ ∀ j ∈ items, j.Plain := by
  induction items with
  | nil => simp [ItemsPlain]
  | cons item rest ih => simp [ItemsPlain, ih]

theorem membersPlain_iff {members : List (String × Json)} :
    MembersPlain members ↔ ∀ m ∈ members, m.2.Plain := by
  induction members with
  | nil => simp [MembersPlain]
  | cons member rest ih =>
    obtain ⟨key, value⟩ := member
    simp [MembersPlain, ih]

theorem ofInt_plain (n : Int) : (ofInt n).Plain := Numeral.digital_ofInt n

theorem ofNat_plain (n : Nat) : (ofNat n).Plain := Numeral.digital_ofInt n

theorem Number.digital_numeral (n : Number) : n.numeral.Digital := by
  cases n with
  | integer n fits => exact Numeral.digital_ofInt n
  | float x finite => exact Binary64.digital_numeral _ _ x

mutual

theorem Value.toJson_plain (v : Value) : v.toJson.Plain := by
  match v with
  | .null | .bool _ | .string _ => trivial
  | .number n => exact n.digital_numeral
  | .array items => exact Value.itemsToJson_plain items
  | .object members => exact Value.membersToJson_plain members

theorem Value.itemsToJson_plain (items : List Value) :
    ItemsPlain (Value.itemsToJson items) := by
  match items with
  | [] => trivial
  | item :: rest => exact ⟨Value.toJson_plain item, Value.itemsToJson_plain rest⟩

theorem Value.membersToJson_plain (members : List (String × Value)) :
    MembersPlain (Value.membersToJson members) := by
  match members with
  | [] => trivial
  | (_, value) :: rest => exact ⟨Value.toJson_plain value, Value.membersToJson_plain rest⟩

end

end Json

open Json

theorem Cell.tagged_plain {tag : String} {value : Json} (h : value.Plain) :
    (Cell.tagged tag value).Plain :=
  ⟨trivial, h, trivial⟩

theorem Cell.floatToJson_plain (x : Binary64) : (Cell.floatToJson x).Plain := by
  unfold Cell.floatToJson
  split
  · exact Binary64.digital_numeral _ _ x
  · split
    · trivial
    · split <;> trivial

mutual

theorem Cell.toJson_plain (c : Cell) : c.toJson.Plain := by
  match c with
  | .null => exact ⟨trivial, trivial⟩
  | .integer n => exact Cell.tagged_plain (ofInt_plain _)
  | .float x => exact Cell.tagged_plain (Cell.floatToJson_plain x)
  | .json v => exact Cell.tagged_plain v.value.toJson_plain
  | .array items => exact Cell.tagged_plain (Cell.itemsToJson_plain items)
  | .boolean _ | .decimal _ | .text _ | .date _ | .time _ | .timestamp _ | .instant _ | .uuid _
  | .bytes _ => exact Cell.tagged_plain trivial

theorem Cell.itemsToJson_plain (items : List Cell) : ItemsPlain (Cell.itemsToJson items) := by
  match items with
  | [] => trivial
  | item :: rest => exact ⟨Cell.toJson_plain item, Cell.itemsToJson_plain rest⟩

end

theorem Row.toJson_plain (row : Row) : row.toJson.Plain :=
  membersPlain_iff.2 fun m hm => by
    obtain ⟨e, -, rfl⟩ := List.mem_map.1 hm
    exact e.2.toJson_plain

theorem Table.toJson_plain (t : Table) : t.toJson.Plain := by
  refine ⟨membersPlain_iff.2 fun m hm => ?_, trivial, trivial⟩
  cases hs : t.schema <;> simp only [hs, List.mem_cons, List.not_mem_nil, or_false] at hm
  · subst hm; trivial
  · rcases hm with rfl | rfl <;> trivial

theorem Stamp.toJson_plain (s : Stamp) : s.toJson.Plain :=
  ⟨ofNat_plain _, ofNat_plain _, trivial⟩

theorem Json.membersPlain_append {ms ns : List (String × Json)} (h : MembersPlain ms)
    (h' : MembersPlain ns) : MembersPlain (ms ++ ns) := by
  rw [membersPlain_iff] at h h' ⊢
  exact fun m hm => (List.mem_append.1 hm).elim (h m) (h' m)

theorem Row.member?_plain (name : String) (row : Option Row) :
    MembersPlain (Json.member? name (row.map Row.toJson)) := by
  cases row with
  | none => trivial
  | some r => exact ⟨r.toJson_plain, trivial⟩

theorem Change.toJson_plain (c : Change) : c.toJson.Plain :=
  membersPlain_append
    (membersPlain_append
      (membersPlain_append
        (membersPlain_append ⟨trivial, trivial, c.table.toJson_plain, trivial⟩
          (Row.member?_plain _ _))
        (Row.member?_plain _ _))
      (Row.member?_plain _ _))
    ⟨c.timestamp.toJson_plain, c.updatedAt.toJson_plain, trivial⟩

theorem Document.toJson_plain (d : Document) : d.toJson.Plain := by
  refine ⟨ofNat_plain _, trivial, trivial, itemsPlain_iff.2 fun j hj => ?_, trivial⟩
  obtain ⟨c, -, rfl⟩ := List.mem_map.1 hj
  exact c.toJson_plain

/-! ## Identifiers, words and tables read back -/

theorem Text.ofHexBytes?_hexBytes (bytes : List UInt8) :
    Text.ofHexBytes? (Text.hexBytes Text.hexDigit bytes) = some bytes := by
  induction bytes with
  | nil => rfl
  | cons b rest ih =>
    have high : b.toNat / 16 < 16 := by have := b.toNat_lt; omega
    have low : b.toNat % 16 < 16 := by omega
    have whole : b.toNat / 16 * 16 + b.toNat % 16 = b.toNat := by omega
    simp only [Text.hexBytes, List.flatMap_cons, List.cons_append, List.nil_append] at ih ⊢
    simp only [Text.ofHexBytes?, Text.hexValue?_hexDigit _ high, Text.hexValue?_hexDigit _ low, ih,
      whole, UInt8.ofNat_toNat]

theorem Text.length_hexBytes (digit : Nat → Char) (bytes : List UInt8) :
    (Text.hexBytes digit bytes).length = 2 * bytes.length := by
  induction bytes with
  | nil => rfl
  | cons b rest ih =>
    simp only [Text.hexBytes, List.flatMap_cons, List.length_append, List.length_cons,
      List.length_nil] at ih ⊢
    omega

theorem Uuid.readHyphenated?_segments {a b c d e : List Char} (ha : a.length = 8)
    (hb : b.length = 4) (hc : c.length = 4) (hd : d.length = 4) (he : e.length = 12) :
    Uuid.readHyphenated? (a ++ '-' :: b ++ '-' :: c ++ '-' :: d ++ '-' :: e) =
      Uuid.readDigits? (a ++ b ++ c ++ d ++ e) := by
  unfold Uuid.readHyphenated?
  rw [if_pos]
  · simp [List.drop_append, ha, hb, hc, hd, List.drop_of_length_le]
  · refine ⟨by simp [ha, hb, hc, hd, he], ?_, ?_, ?_, ?_⟩ <;>
      simp [List.getElem?_append, ha, hb, hc, hd]

theorem Uuid.read?_text (u : Uuid) : Uuid.read? u.text = some u := by
  have length : u.digits.length = 32 := by
    rw [Uuid.digits, Text.length_hexBytes, u.length_eq]
  have digits : Uuid.readDigits? u.digits = some u := by
    simp [Uuid.readDigits?, Uuid.digits, Text.ofHexBytes?_hexBytes, Uuid.ofBytes?, u.length_eq]
  have segments : u.digits.take 8 ++ (u.digits.drop 8).take 4 ++ (u.digits.drop 12).take 4 ++
      (u.digits.drop 16).take 4 ++ u.digits.drop 20 = u.digits := by
    have two : u.digits.drop 12 = (u.digits.drop 8).drop 4 := by simp
    have three : u.digits.drop 16 = (u.digits.drop 12).drop 4 := by simp
    have four : u.digits.drop 20 = (u.digits.drop 16).drop 4 := by simp
    simp only [List.append_assoc]
    rw [four, List.take_append_drop, three, List.take_append_drop, two, List.take_append_drop,
      List.take_append_drop]
  have hyphenated : Uuid.readHyphenated? u.text = some u := by
    unfold Uuid.text
    rw [Uuid.readHyphenated?_segments, segments, digits] <;> simp [length]
  have whole : u.text.length = 36 := by simp [Uuid.text, length]
  unfold Uuid.read?
  rw [if_neg (by omega), if_pos whole, hyphenated]

theorem Change.idOfJson?_text (id : ChangeId) : Change.idOfJson? (.string id.text) = some id := by
  simp [Change.idOfJson?, ChangeId.text, Uuid.render, Uuid.read?_text]

theorem ChangeKind.ofName?_name (kind : ChangeKind) :
    ChangeKind.ofName? kind.name = some kind := by
  cases kind <;> rfl

theorem Table.ofJson?_toJson (t : Table) : Table.ofJson? t.toJson = some t := by
  obtain ⟨database, schema, name⟩ := t
  cases schema <;>
    simp [Table.ofJson?, Table.toJson, Json.fields?, Json.membersNamed, Json.text?, Json.optional?]

/-! ## Changes read back -/

/-- The second change is what the first one, once written, is read back as. -/
def Change.ReadsAs (c c' : Change) : Prop :=
  Change.ofJson? (Json.depthLimit - 2) c.toJson = some c'

/-- The second row is what the first one, once written in a change, is read back as. -/
def Row.ReadsAs (row row' : Row) : Prop :=
  Row.ofJson? .direct (Json.depthLimit - 3) row.toJson = some row'

theorem Change.fields?_toJson (c : Change) :
    c.toJson.fields? Change.fieldNames =
      some [some (.string c.id.text), some (.string c.kind.name), some c.table.toJson,
        c.primaryKey.map Row.toJson, c.oldValues.map Row.toJson, c.newValues.map Row.toJson,
        some c.timestamp.toJson, some c.updatedAt.toJson] := by
  unfold Change.toJson Change.fieldNames
  cases c.primaryKey <;> cases c.oldValues <;> cases c.newValues <;>
    simp [Json.fields?, Json.membersNamed, Json.member?]

theorem Row.optional?_toJson {read : Json → Option Row} (row : Option Row) :
    Json.optional? read (row.map Row.toJson) =
      match row with
      | none => some none
      | some r => (read r.toJson).map some := by
  cases row <;> rfl

theorem Row.rel_of_optional? {read : Json → Option Row} {row row' : Option Row}
    (h : Json.optional? read (row.map Row.toJson) = some row') :
    Option.Rel (fun r r' => read r.toJson = some r') row row' := by
  rw [optional?_toJson] at h
  cases row with
  | none =>
    cases h
    exact .none
  | some r =>
    obtain ⟨r', found, rfl⟩ := Option.map_eq_some_iff.1 h
    exact .some found

/-- A change is read back with its identifier, kind and table, and with the rows that its rows are
read back as. -/
theorem Change.ReadsAs.spec {c c' : Change} (h : c.ReadsAs c') :
    c'.id = c.id ∧ c'.kind = c.kind ∧ c'.table = c.table ∧
      Option.Rel Row.ReadsAs c.primaryKey c'.primaryKey ∧
      Option.Rel Row.ReadsAs c.oldValues c'.oldValues ∧
      Option.Rel Row.ReadsAs c.newValues c'.newValues := by
  unfold ReadsAs Change.ofJson? at h
  simp only [Change.fields?_toJson, Option.bind_eq_bind, Option.bind_some,
    Change.idOfJson?_text, Cell.choice?, ChangeKind.ofName?_name, Table.ofJson?_toJson,
    Option.bind_eq_some_iff, Option.some.injEq] at h
  obtain ⟨key, hk, old, ho, new, hn, timestamp, -, updatedAt, -, rfl⟩ := h
  exact ⟨rfl, rfl, rfl, Row.rel_of_optional? hk, Row.rel_of_optional? ho, Row.rel_of_optional? hn⟩

/-! ## Rows read back -/

theorem Dict.insert_isEmpty {κ ν : Type} [LinearKey κ] (d : Dict κ ν) (k : κ) (v : ν) :
    (d.insert k v).isEmpty = false :=
  Dict.isEmpty_eq_false_iff.2 ⟨k, v, Dict.get?_insert_self d k v⟩

theorem Dict.foldl_insert_isEmpty {κ ν : Type} [LinearKey κ] (l : List (κ × ν)) (d : Dict κ ν)
    (h : d.isEmpty = false) : (l.foldl (fun d e => d.insert e.1 e.2) d).isEmpty = false := by
  induction l generalizing d with
  | nil => exact h
  | cons e rest ih => exact ih _ (Dict.insert_isEmpty d e.1 e.2)

theorem Dict.ofList_isEmpty {κ ν : Type} [LinearKey κ] (l : List (κ × ν)) :
    (Dict.ofList l).isEmpty = l.isEmpty := by
  cases l with
  | nil => rfl
  | cons e rest => exact Dict.foldl_insert_isEmpty rest _ (Dict.insert_isEmpty _ e.1 e.2)

theorem Row.columnsOfJson_isEmpty {source : Cell.Source} {room : Nat}
    {members : List (String × Json)} {cells : List (String × Cell)}
    (h : Row.columnsOfJson source room members = .ok cells) : cells.isEmpty = members.isEmpty := by
  cases members with
  | nil => cases h; rfl
  | cons m rest =>
    simp only [Row.columnsOfJson] at h
    split at h
    · cases h
    · split at h
      · cases h; rfl
      · cases h

theorem Row.ofJson?_isEmpty {source : Cell.Source} {room : Nat} {row row' : Row}
    (h : Row.ofJson? source room row.toJson = some row') : row'.isEmpty = row.isEmpty := by
  cases room with
  | zero => cases h
  | succ room =>
    obtain ⟨cells, read, rfl⟩ := Option.map_eq_some_iff.1 h
    rw [Dict.ofList_isEmpty]
    cases columns : Row.columnsOfJson source room (row.entries.map fun e => (e.1, e.2.toJson)) with
    | error e => rw [columns] at read; cases read
    | ok found =>
      rw [columns] at read
      cases read
      rw [Row.columnsOfJson_isEmpty columns, List.isEmpty_map, Dict.isEmpty]

theorem Row.ReadsAs.isEmpty {row row' : Row} (h : row.ReadsAs row') :
    row'.isEmpty = row.isEmpty :=
  Row.ofJson?_isEmpty h

theorem Change.ReadsAs.isFullRowAddressed {c c' : Change} (h : c.ReadsAs c') :
    c'.isFullRowAddressed = c.isFullRowAddressed := by
  obtain ⟨-, -, -, key, -⟩ := h.spec
  unfold Change.isFullRowAddressed Change.usableKey?
  revert key
  cases c.primaryKey <;> cases c'.primaryKey <;> intro key <;> cases key
  · rfl
  · next read =>
    rw [Option.filter_some, Option.filter_some, read.isEmpty]
    split <;> rfl

/-! ## Documents read back -/

theorem mapM_eq_some_iff {α β : Type} {f : α → Option β} {l : List α} {m : List β} :
    l.mapM f = some m ↔ List.Forall₂ (fun a b => f a = some b) l m := by
  induction l generalizing m with
  | nil =>
    rw [List.mapM_nil]
    cases m <;> simp
  | cons a rest ih =>
    rw [List.mapM_cons]
    cases m with
    | nil => simp [Option.bind_eq_some_iff]
    | cons b m => simp [Option.bind_eq_some_iff, ih]

theorem forall_mem_of_forall₂ {α β : Type} {R : α → β → Prop} {p : α → Prop} {q : β → Prop}
    {l : List α} {m : List β} (h : List.Forall₂ R l m) (carry : ∀ a b, R a b → p a → q b)
    (all : ∀ a ∈ l, p a) : ∀ b ∈ m, q b := by
  induction h with
  | nil => exact fun b hb => absurd hb List.not_mem_nil
  | cons related _ ih =>
    obtain ⟨first, rest⟩ := List.forall_mem_cons.1 all
    exact List.forall_mem_cons.2 ⟨carry _ _ related first, ih rest⟩

theorem Document.fields?_toJson (d : Document) :
    d.toJson.fields? ["version", "session_id", "active", "changes"] =
      some [some (Json.ofNat d.version.toNat), some (.string d.session.name),
        some (.bool d.active), some (.array (d.changes.map Change.toJson))] := by
  simp [Json.fields?, Json.membersNamed, Document.toJson]

theorem Document.ofJson?_toJson {d d' : Document} (h : Document.ofJson? d.toJson = some d') :
    d'.session = d.session ∧ d'.active = d.active ∧
      (d.changes.map Change.toJson).mapM (Change.ofJson? (Json.depthLimit - 2)) =
        some d'.changes := by
  unfold Document.ofJson? at h
  obtain ⟨fields, hf, h⟩ := Option.bind_eq_some_iff.1 h
  obtain rfl := Option.some.inj ((fields?_toJson d).symm.trans hf)
  obtain ⟨version, -, h⟩ := Option.bind_eq_some_iff.1 h
  obtain ⟨session, hs, h⟩ := Option.bind_eq_some_iff.1 h
  obtain ⟨active, ha, h⟩ := Option.bind_eq_some_iff.1 h
  obtain ⟨changes, hc, h⟩ := Option.bind_eq_some_iff.1 h
  cases h
  exact ⟨congrArg SessionId.mk (Option.some.inj hs.symm), Option.some.inj ha.symm, hc⟩

/-- What a written document is read back as: a document of the same session, with the changes that
were written, each read back by itself. -/
theorem Document.changes_of_read? {d d' : Document} (h : Document.read? d.render = some d') :
    d'.session = d.session ∧ d'.active = d.active ∧
      List.Forall₂ Change.ReadsAs d.changes d'.changes := by
  obtain ⟨j, hj, h⟩ := Option.bind_eq_some_iff.1 h
  obtain rfl := Json.read?_render d.toJson_plain hj
  obtain ⟨session, active, changes⟩ := Document.ofJson?_toJson h
  refine ⟨session, active, ?_⟩
  rw [List.mapM_map, mapM_eq_some_iff] at changes
  exact changes

end DraftLedger
