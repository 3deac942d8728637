import DraftLedger.Cell.Stored
import DraftLedger.Dict
import DraftLedger.Json.Record

/-!
# Rows and tables

* `Row` : cells by column name.
* `Table` : a table with its database and schema.
* `Address` : how an edit points at a row, by its key or by all columns known of it.
* `Row.select?` : the key of a row over given columns.
-/

set_option autoImplicit false

namespace DraftLedger

/-! ## Rows -/

/-- Cells by column name. -/
abbrev Row := Dict String Cell

namespace Row

/-- Whether this column of the row holds a cell equal to the given one. -/
def holds (row : Row) (column : String) (value : Cell) : Bool :=
  match row.get? column with
  | some cell => cell == value
  | none => false

/-- Whether the row agrees with `part` on every column of `part`. -/
def covers (row part : Row) : Bool := part.entries.all fun e => row.holds e.1 e.2

/-- The cells of the given columns, if there is a column and the row has them all. -/
def select? (row : Row) (columns : List String) : Option Row :=
  if columns = [] then none
  else (columns.mapM fun c => (row.get? c).map fun v => (c, v)).map Dict.ofList

def toJson (row : Row) : Json := .object (row.entries.map fun e => (e.1, e.2.toJson))

/-- Reads members as columns, each with room for its cell. -/
def columnsOfJson (source : Cell.Source) (room : Nat) :
    List (String × Json) → Except Cell.ReadError (List (String × Cell))
  | [] => .ok []
  | (column, value) :: rest =>
    match Cell.ofJson source room value with
    | .error e => .error e
    | .ok cell =>
      match columnsOfJson source room rest with
      | .ok cells => .ok ((column, cell) :: cells)
      | .error e => .error e

/-- Reads a stored row; the last of several cells of one column counts. Of the arrays and objects
that the form is made of, at most `room` may lie in each other. -/
def ofJson? (source : Cell.Source) (room : Nat) : Json → Option Row
  | .object members =>
    match room with
    | 0 => none
    | room + 1 => (columnsOfJson source room members).toOption.map Dict.ofList
  | _ => none

end Row

/-! ## Tables -/

/-- A table in a database, in a schema of it if the database has schemas. -/
structure Table where
  database : String
  schema : Option String
  name : String
deriving DecidableEq

namespace Table

/-- No schema comes before every schema, and schemas are ordered as texts. -/
def SchemaBefore : Option String → Option String → Prop
  | none, some _ => True
  | some a, some b => a < b
  | _, none => False

instance (a b : Option String) : Decidable (SchemaBefore a b) :=
  match a, b with
  | none, some _ => isTrue trivial
  | some a, some b => inferInstanceAs (Decidable (a < b))
  | none, none => isFalse id
  | some _, none => isFalse id

theorem schema_irrefl (a : Option String) : ¬ SchemaBefore a a := by
  cases a with
  | none => exact id
  | some s => exact String.lt_irrefl s

theorem schema_trans {a b c : Option String} (h : SchemaBefore a b) (h' : SchemaBefore b c) :
    SchemaBefore a c :=
  match a, b, c, h, h' with
  | none, some _, some _, _, _ => trivial
  | some _, some _, some _, h, h' => String.lt_trans h h'

theorem schema_connected {a b : Option String} (h : ¬ SchemaBefore a b)
    (h' : ¬ SchemaBefore b a) : a = b :=
  match a, b, h, h' with
  | none, none, _, _ => rfl
  | none, some _, h, _ => absurd trivial h
  | some _, none, _, h' => absurd trivial h'
  | some _, some _, h, h' => congrArg some (String.le_antisymm h' h)

/-- Order by database, then schema, then name. -/
def Before (a b : Table) : Prop :=
  a.database < b.database ∨
    (a.database = b.database ∧
      (SchemaBefore a.schema b.schema ∨ (a.schema = b.schema ∧ a.name < b.name)))

instance : LT Table := ⟨Before⟩

instance : DecidableLT Table := fun a b =>
  inferInstanceAs (Decidable (a.database < b.database ∨
    (a.database = b.database ∧
      (SchemaBefore a.schema b.schema ∨ (a.schema = b.schema ∧ a.name < b.name)))))

instance : LinearKey Table where
  decLT := inferInstance
  decEq := inferInstance
  irrefl a h := by
    rcases h with h | ⟨-, h | ⟨-, h⟩⟩
    · exact String.lt_irrefl _ h
    · exact schema_irrefl _ h
    · exact String.lt_irrefl _ h
  trans {a b c} h h' := by
    rcases h with h | ⟨e, h⟩
    · rcases h' with h' | ⟨e', -⟩
      · exact .inl (String.lt_trans h h')
      · exact .inl (e' ▸ h)
    · rcases h' with h' | ⟨e', h'⟩
      · exact .inl (e ▸ h')
      · refine .inr ⟨e.trans e', ?_⟩
        rcases h with h | ⟨f, h⟩
        · rcases h' with h' | ⟨f', -⟩
          · exact .inl (schema_trans h h')
          · exact .inl (f' ▸ h)
        · rcases h' with h' | ⟨f', h'⟩
          · exact .inl (f ▸ h')
          · exact .inr ⟨f.trans f', String.lt_trans h h'⟩
  connected {a b} h h' := by
    obtain ⟨d, s, n⟩ := a
    obtain ⟨d', s', n'⟩ := b
    simp only [LT.lt, Before, not_or, not_and] at h h'
    have hd : d = d' := String.le_antisymm h'.1 h.1
    subst hd
    have hs : s = s' := schema_connected (h.2 rfl).1 (h'.2 rfl).1
    subst hs
    have hn : n = n' := String.le_antisymm ((h'.2 rfl).2 rfl) ((h.2 rfl).2 rfl)
    subst hn
    rfl

/-- The parts of the name with points between them. -/
def displayName (t : Table) : String :=
  match t.schema with
  | some schema => t.database ++ "." ++ schema ++ "." ++ t.name
  | none => t.database ++ "." ++ t.name

def toJson (t : Table) : Json :=
  .object [
    ("namespace", .object (("database", .string t.database) ::
      match t.schema with
      | some schema => [("schema", .string schema)]
      | none => [])),
    ("table", .string t.name)]

def ofJson? (j : Json) : Option Table := do
  match ← j.fields? ["namespace", "table"] with
  | [some space, some name] =>
    match ← space.fields? ["database", "schema"] with
    | [some database, schema] =>
      some ⟨← database.text?, ← Json.optional? Json.text? schema, ← name.text?⟩
    | _ => none
  | _ => none

end Table

/-! ## Addresses -/

/-- How an edit points at a row. -/
inductive Address where
  /-- By the cells of its key. -/
  | key (columns : Row)
  /-- By every cell known of it. -/
  | fullRow (columns : Row)

namespace Address

def columns : Address → Row
  | .key c => c
  | .fullRow c => c

/-- Whether the row is pointed at by every cell known of it. -/
def isFullRow : Address → Bool
  | .key _ => false
  | .fullRow _ => true

/-- Equality of addresses: the same way of pointing and equal columns. -/
def same : Address → Address → Bool
  | .key a, .key b => a == b
  | .fullRow a, .fullRow b => a == b
  | _, _ => false

instance : BEq Address := ⟨same⟩

/-- Whether the address points at a row. An address without columns points at none. -/
def matchesRow (a : Address) (row : Row) : Bool := !a.columns.isEmpty && row.covers a.columns

def toJson (a : Address) : Json :=
  .object [("by", .string (if a.isFullRow then "full_row" else "key")),
    ("columns", a.columns.toJson)]

def ofWay? (way : String) (columns : Option Row) : Option Address :=
  match way with
  | "key" => columns.map .key
  | "full_row" => columns.map .fullRow
  | _ => none

/-- Reads a stored address: an object with the way of pointing and the columns, or the two in an
array. Of the arrays and objects that the form is made of, at most `room` may lie in each other. -/
def ofJson? (room : Nat) : Json → Option Address
  | .object members =>
    match Cell.tagged? "by" "columns" members with
    | some (.tagFirst way columns) => do
      ofWay? (← Cell.memberTag? .direct way) (Row.ofJson? .direct (room - 1) columns)
    | some (.valueFirst columns way) => do
      if Cell.canHold (room - 1) columns then
        ofWay? (← Cell.memberTag? .direct way) (Row.ofJson? .held (room - 1) columns)
      else none
    | _ => none
  | .array [way, columns] => do
    ofWay? (← Cell.itemTag? .direct way) (Row.ofJson? .direct (room - 1) columns)
  | _ => none

end Address

end DraftLedger
