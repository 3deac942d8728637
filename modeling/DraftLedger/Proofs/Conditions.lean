import DraftLedger.Proofs.WellFormed

/-!
# The conditions of statements

An update or a deletion affects the rows that its condition selects.  The condition comes from the
key of the change if it has one with columns, and otherwise from the row as it was; it has a
conjunct for each column, so that it is never empty, whatever a stored change looks like.

* `Change.FoundBy` : the cells by which the row of a change is to be found.
* `Sql.EndsInCondition` : a statement that ends in a condition with one conjunct for each cell.
* `Script.compile_conditions` : the statements of a script, and those that find their row by the row
  as it was.
-/

set_option autoImplicit false

namespace DraftLedger

/-! ## How a row is to be found -/

instance (row : Option Row) : Decidable (Row.Given row) := decidable_of_iff' _ Row.given_iff

namespace Change

variable {c : Change} {row : Row}

/-- The cells by which the row of an update or a deletion is to be found. -/
inductive FoundBy (c : Change) : Row → Prop
  | key {key : Row} (keyed : c.primaryKey = some key) (nonempty : key.isEmpty = false) :
      FoundBy c key
  | image {image : Row} (keyless : ¬ Row.Given c.primaryKey) (known : c.oldValues = some image)
      (nonempty : image.isEmpty = false) : FoundBy c image

/-- The change is an update or a deletion whose row is to be found by the row as it was. -/
def IsFoundByImage (c : Change) : Prop :=
  c.kind ≠ .insert ∧ ¬ Row.Given c.primaryKey ∧ Row.Given c.oldValues

instance (c : Change) : Decidable c.IsFoundByImage := inferInstanceAs (Decidable (_ ∧ _ ∧ _))

theorem FoundBy.nonempty (h : c.FoundBy row) : row.isEmpty = false := by
  cases h with
  | key keyed nonempty => exact nonempty
  | image keyless known nonempty => exact nonempty

theorem FoundBy.given (h : c.FoundBy row) : Row.Given c.primaryKey ∨ Row.Given c.oldValues := by
  cases h with
  | key keyed nonempty => exact .inl ⟨row, keyed, nonempty⟩
  | image keyless known nonempty => exact .inr ⟨row, known, nonempty⟩

theorem knownImage_of_ne_insert (written : c.kind ≠ .insert) : c.knownImage = c.oldValues := by
  unfold knownImage
  cases kind : c.kind with
  | insert => exact absurd kind written
  | update => rfl
  | delete => rfl

/-- The address of an update or a deletion has the cells by which its row is to be found. -/
theorem foundBy_of_address? {address : Address} (written : c.kind ≠ .insert)
    (h : c.address? = some address) : c.FoundBy address.columns := by
  unfold address? at h
  split at h
  · next key usable =>
    cases h
    obtain ⟨keyed, nonempty⟩ := usableKey?_eq_some.1 usable
    exact .key keyed nonempty
  · next unusable =>
    obtain ⟨image, found, rfl⟩ := Option.map_eq_some_iff.1 h
    obtain ⟨known, nonempty⟩ := Option.filter_eq_some_iff.1 found
    have keyless : ¬ Row.Given c.primaryKey := by
      rw [← isSome_usableKey?_iff, unusable]
      decide
    rw [knownImage_of_ne_insert written] at known
    have nonempty : image.isEmpty = false := by simpa using nonempty
    exact .image keyless known nonempty

theorem isFullRowAddressed_iff : c.isFullRowAddressed = true ↔ ¬ Row.Given c.primaryKey := by
  rw [← isSome_usableKey?_iff, isFullRowAddressed, Option.isNone_iff_eq_none,
    Option.not_isSome_iff_eq_none]

theorem isFullRowChange_iff :
    Script.isFullRowChange c = true ↔ c.kind ≠ .insert ∧ ¬ Row.Given c.primaryKey := by
  rw [Script.isFullRowChange, Bool.and_eq_true, decide_eq_true_iff, isFullRowAddressed_iff]

/-- A change without a key is asked about if it is an update or a deletion of a known row. -/
theorem isFullRowChange_eq (found : c.kind ≠ .insert → ∃ row, c.FoundBy row) :
    Script.isFullRowChange c = decide c.IsFoundByImage := by
  rw [Bool.eq_iff_iff, decide_eq_true_iff, isFullRowChange_iff, IsFoundByImage]
  constructor
  · rintro ⟨written, none⟩
    obtain ⟨row, by_⟩ := found written
    exact ⟨written, none, by_.given.resolve_left none⟩
  · rintro ⟨written, none, -⟩
    exact ⟨written, none⟩

end Change

/-! ## Conditions -/

namespace Sql

variable {d : Dialect} {c : Change} {s : String}

/-- A column is compared with a cell; a null is not compared but asked for. -/
inductive Compares (d : Dialect) : String × Cell → String → Prop
  | null {column : String} : Compares d (column, .null) (quoteName d column ++ " IS NULL")
  | value {column : String} {cell : Cell} {text : String} (present : cell ≠ .null)
      (literal : Sql.literal d cell = .ok text) :
      Compares d (column, cell) (quoteName d column ++ " = " ++ text)

/-- The statement ends in a condition that compares each column of the row with its cell, and that
compares something. A reader comes to the word `WHERE` outside of all quotes, and no conjunct leaves
a reader inside of them. -/
def EndsInCondition (d : Dialect) (row : Row) (s : String) : Prop :=
  ∃ before conjuncts, s = before ++ " WHERE " ++ " AND ".intercalate conjuncts ∧
    Settled d (before ++ " WHERE ") ∧ (∀ t ∈ conjuncts, Sealed d t) ∧
    List.Forall₂ (Compares d) row.entries conjuncts ∧ conjuncts ≠ []

theorem compares_of_predicate {e : String × Cell} (h : predicate d e.1 e.2 = .ok s) :
    Compares d e s := by
  obtain ⟨column, cell⟩ := e
  unfold predicate at h
  split at h
  · next null =>
    cases cell with
    | null => cases h; exact .null
    | _ => cases null
  · next present =>
    split at h
    · next text found =>
      cases h
      exact .value (by rintro rfl; exact present rfl) found
    · cases h

theorem endsInCondition {before condition : String} (written : c.kind ≠ .insert)
    (sealed : Sealed d before) (h : whereClause d c = .ok condition) :
    ∃ row, c.FoundBy row ∧ EndsInCondition d row (before ++ " WHERE " ++ condition) := by
  unfold whereClause at h
  split at h
  · cases h
  next address addressed =>
  cases listed : forColumns address.columns (predicate d) with
  | error e => rw [listed] at h; cases h
  | ok conjuncts =>
    rw [listed] at h
    cases h
    have found := Change.foundBy_of_address? written addressed
    have compared : List.Forall₂ (Compares d) address.columns.entries conjuncts :=
      (forall₂_of_forEach listed).imp fun _ _ => compares_of_predicate
    refine ⟨address.columns, found, before, conjuncts, rfl,
      settled_before sealed (by decide) (by decide),
      forColumns_sealed (fun _ _ _ => predicate_sealed) listed, compared, ?_⟩
    rintro rfl
    have empty : address.columns.entries = [] := List.forall₂_nil_right_iff.1 compared
    have nonempty := found.nonempty
    rw [Dict.isEmpty, empty] at nonempty
    cases nonempty

/-- The statement of an update or a deletion ends in the condition that finds its row. -/
theorem statement_condition {keyColumns : KeyColumns} (written : c.kind ≠ .insert)
    (h : statement d keyColumns c = .ok s) : ∃ row, c.FoundBy row ∧ EndsInCondition d row s := by
  unfold statement at h
  split at h
  · next insert => exact absurd insert written
  · obtain ⟨-, before, condition, sealed, -, hw, rfl⟩ := updateStatement_parts h
    exact endsInCondition written sealed hw
  · obtain ⟨before, condition, sealed, -, hw, rfl⟩ := deleteStatement_parts h
    exact endsInCondition written sealed hw

theorem given_newValues_of_statement {keyColumns : KeyColumns} (update : c.kind = .update)
    (h : statement d keyColumns c = .ok s) : Row.Given c.newValues := by
  rw [statement, update] at h
  exact Row.given_iff.2 (updateStatement_parts h).1

end Sql

/-! ## Scripts -/

namespace Script

variable {threshold : Nat} {keyColumns : KeyColumns} {d : Dialect} {scope : Option Table}
  {changes : List Change} {script : Script}

/-- No statement of a script is without a condition that finds the row of its change, and those
changes of which the row is found by the row as it was are the ones to be accepted. Changes of which
no row can be found, and updates that set nothing, are not compiled. -/
theorem compile_conditions (h : compile threshold keyColumns d scope changes = .ok script) :
    List.Forall₂ (fun c s => c.kind ≠ .insert → ∃ row, c.FoundBy row ∧ Sql.EndsInCondition d row s)
        (covered scope changes) script.statements ∧
      script.fullRowChanges =
        ((covered scope changes).filter fun c => c.IsFoundByImage).map (·.id) ∧
      ∀ c ∈ covered scope changes,
        (c.kind ≠ .insert → Row.Given c.primaryKey ∨ Row.Given c.oldValues) ∧
        (c.kind = .update → Row.Given c.newValues) := by
  have compiles := compiles_of_compile h
  have each := Sql.forall₂_of_forEach compiles.statements
  have found : ∀ c ∈ covered scope changes, c.kind ≠ .insert → ∃ row, c.FoundBy row := by
    refine forall_mem_of_forall₂ each.flip (fun s c made _ written => ?_) fun _ _ => trivial
    obtain ⟨row, by_, -⟩ := Sql.statement_condition written made
    exact ⟨row, by_⟩
  have set : ∀ c ∈ covered scope changes, c.kind = .update → Row.Given c.newValues :=
    forall_mem_of_forall₂ each.flip
      (fun s c made _ update => Sql.given_newValues_of_statement update made) fun _ _ => trivial
  refine ⟨each.imp fun c s made written => Sql.statement_condition written made, ?_,
    fun c mem => ⟨fun written => ?_, set c mem⟩⟩
  · rw [compiles.fullRowChanges]
    congr 1
    exact List.filter_congr fun c mem => Change.isFullRowChange_eq (found c mem)
  · obtain ⟨row, by_⟩ := found c mem written
    exact by_.given

end Script

/-! ## Changes of a damaged document -/

namespace Sample

/-- An update with a key without columns, of a row that had no name. -/
def keylessUpdate : Change :=
  { id := id 1
    kind := .update
    table := items
    primaryKey := some Dict.empty
    oldValues := some (Dict.ofList [("id", .integer 1), ("name", .null)])
    newValues := some (named "a")
    timestamp := ⟨1, 0⟩
    updatedAt := ⟨1, 0⟩ }

/-- A deletion of which only the key is known. -/
def keyedDelete : Change :=
  { keylessUpdate with
    id := id 2, kind := .delete, primaryKey := some (key 2), oldValues := none, newValues := none }

/-- An insertion with a row as it was. -/
def imagedInsert : Change := { keylessUpdate with id := id 3, kind := .insert }

/-- Changes as no edit makes them. -/
def malformed : List Change := [keylessUpdate, keyedDelete, imagedInsert]

theorem compile_conditions_malformed :
    ∃ script, Script.compile 5 Dict.empty .sqlite none malformed = .ok script ∧
      script.statements =
        ["UPDATE \"items\" SET \"name\" = 'a' WHERE \"id\" = 1 AND \"name\" IS NULL",
          "DELETE FROM \"items\" WHERE \"id\" = 2",
          "INSERT INTO \"items\" (\"name\") VALUES ('a')"] ∧
      List.Forall₂
        (fun c s => c.kind ≠ .insert → ∃ row, c.FoundBy row ∧ Sql.EndsInCondition .sqlite row s)
        malformed script.statements ∧
      script.fullRowChanges = [id 1] := by
  have compiled : ∃ script, Script.compile 5 Dict.empty .sqlite none malformed = .ok script :=
    ⟨_, rfl⟩
  obtain ⟨script, h⟩ := compiled
  have statements := (Script.compiles_of_compile h).statements
  obtain ⟨conditions, flagged, -⟩ := Script.compile_conditions h
  exact ⟨script, h, (Except.ok.inj statements).symm, conditions, flagged⟩

end Sample

end DraftLedger
