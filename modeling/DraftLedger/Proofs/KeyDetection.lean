import DraftLedger.Proofs.FollowUp
import DraftLedger.Proofs.Placement
import DraftLedger.Proofs.Registrations

/-!
# Detected keys

A detection registers the columns that it answers with, and leaves those that were registered before
if it finds none.  Edits without a key are addressed by what is registered.

* `Ledger.address?_of_appended` : the key columns of a table and the address of an edit.
* `Engine.detectKeys_leaves` : what a detection leaves.
-/

set_option autoImplicit false

namespace DraftLedger

/-! ## Detections -/

/-- An edit without a key that becomes a change of its own points at its row by the columns that are
registered for its table, if it knows them all. -/
theorem Ledger.address?_of_appended {l : Ledger} {s : SessionId} {edit : Edit} {id new : ChangeId}
    {now : UInt64} (keyless : edit.usableKey? = none) (nonempty : edit.knownValues.isEmpty = false)
    (appended : (l.record s edit id now).answer = .ok (.appended new)) :
    ∃ c ∈ (l.record s edit id now).ledger.changes s, c.id = new ∧ c.table = edit.table ∧
      c.address? = some (edit.knownValues.addressBy (l.keyColumns.get? edit.table)) := by
  rcases l.record_exact s edit id now with
    ⟨failure, l', eq, -⟩ | ⟨stamp, changes, outcome, -, -, -, -, staged, eq⟩
  · rw [eq] at appended
    cases appended
  rw [eq] at appended ⊢
  obtain rfl : outcome = .appended new := Except.ok.inj appended
  rw [Ledger.changes, session_written, if_pos rfl]
  rcases stage_at staged with ⟨rfl, same⟩ | ⟨i, existing, taken, -, -, takes, notInsert, -⟩
  · refine ⟨_, List.mem_append_right _ (List.mem_singleton_self _), (Outcome.appended.inj same).symm,
      Edit.withRegisteredKey_table .., ?_⟩
    exact Edit.address?_of_keyless keyless nonempty l.keyColumns
  · -- A change that takes in the edit is no new one.
    rcases Change.takeIn_cases takes notInsert with
      ⟨-, -, -, other⟩ | ⟨-, -, -, other⟩ | ⟨-, -, -, other⟩ | ⟨-, -, -, other⟩ <;> cases other

namespace Engine

/-- A detection fails when the database does, and leaves everything as it is.  Else it answers with the
columns that identify a row by what the database reports, if there are any, and registers these for the
table and nothing for other tables.  What is registered afterwards is what it answers, unless it finds no
key while columns are registered: these were said last of the table, and stay.  Later edits without a key
are addressed by what is registered, and so by their whole row if that is nothing. -/
theorem detectKeys_leaves (first : Engine) (moves : List Move) (handle : ConnectionHandle)
    (table : Table) :
    let e := first.run moves
    let before := e.ledger.keyColumns.get? table
    first.Stands table moves before ∧
    match e.detectKeys handle table with
    | (.error refusal, e') => e' = e ∧ ∃ failure,
        e.database.fetchColumns handle table = .error failure ∧
          refusal = .metadata table failure.message
    | (.ok key, e') =>
      (∃ columns, e.database.fetchColumns handle table = .ok columns ∧
        Column.Identifies columns key) ∧
      (∀ other, other ≠ table →
        e'.ledger.keyColumns.get? other = e.ledger.keyColumns.get? other) ∧
      e'.ledger.keyColumns.get? table = key.or before ∧
      (e'.ledger.keyColumns.get? table = key ↔ key ≠ none ∨ before = none) ∧
      ∀ later s edit id now new, e'.Silent table later → edit.table = table →
        edit.usableKey? = none → edit.knownValues.isEmpty = false →
        ((e'.run later).ledger.record s edit id now).answer = .ok (.appended new) →
        ∃ c ∈ ((e'.run later).ledger.record s edit id now).ledger.changes s,
          c.id = new ∧ c.table = table ∧
            c.address? = some (edit.knownValues.addressBy (key.or before)) := by
  intro e before
  refine ⟨first.run_stands table moves, ?_⟩
  rcases e.detectKeys_cases handle table with ⟨failure, fetched, eq⟩ | ⟨columns, fetched, eq⟩
  · rw [eq]
    exact ⟨rfl, failure, fetched, rfl⟩
  have here : (e.detectKeys handle table).2.ledger.keyColumns.get? table =
      (Column.chooseKey? columns).or before := by
    simp only [get?_detectKeys, said?, if_true, fetched]
    cases Column.chooseKey? columns <;> rfl
  have elsewhere (other : Table) (differs : other ≠ table) :
      (e.detectKeys handle table).2.ledger.keyColumns.get? other =
        e.ledger.keyColumns.get? other := by
    rw [get?_detectKeys, said?, if_neg differs.symm, Option.getD_none]
  rw [eq] at here elsewhere ⊢
  refine ⟨⟨columns, fetched, Column.chooseKey?_identifies columns⟩, elsewhere, here, ?_, ?_⟩
  · rw [here]
    cases Column.chooseKey? columns <;> simp
  · rintro later s edit id now new silent rfl keyless nonempty appended
    rw [← here, ← silent.get?_run]
    exact Ledger.address?_of_appended keyless nonempty appended

end Engine

namespace Sample

open Engine

/-- A connection. -/
def line : ConnectionHandle := ⟨"line"⟩

/-- The column `id`, which is unique at first, is not unique any more. -/
def stripped : List Move :=
  [.reportColumns items [(Column.plain "id" "bigint").asUnique.notNull], .detectKeys line items,
    .reportColumns items [Column.plain "id" "bigint"]]

/-- The second detection finds no key, and the key of the first one stays. -/
theorem stripped_keeps_key :
    ((engine.run stripped).detectKeys line items).1 = .ok none ∧
      ((engine.run stripped).detectKeys line items).2.ledger.keyColumns.get? items = some ["id"] :=
  ⟨rfl, rfl⟩

end Sample

end DraftLedger
