import DraftLedger.Script

/-!
# Why changes have no script

Compiling fails for one reason only: some change that the script would cover has no statement.

* `Change.Fault` : the refusals that are the fault of one change.
* `Sql.literal_error` : a cell is refused for its value.
* `Script.compile_error` : of changes that are not compiled, one has such a fault.
-/

set_option autoImplicit false

namespace DraftLedger

/-- The change has no statement: a cell of it has no literal, its row cannot be pointed at, or it is
to set values and has none. -/
inductive Change.Fault (d : Dialect) (c : Change) : Error → Prop
  | unsupported (kind : String) (cause : UnsupportedCause) :
      Fault d c (.unsupportedValue d kind cause)
  | unaddressed (unaddressed : c.address? = none) :
      Fault d c (.addressing c.table (.change c.kind c.id))
  | nothingToSet (update : c.kind = .update)
      (nothing : (c.newValues.getD Dict.empty).isEmpty = true) :
      Fault d c (.invalidChange (.nothingToSet c.id c.table))

namespace Sql

variable {d : Dialect} {e : Error} {c : Change}

/-! ## Cells -/

theorem refuse_error {cell : Cell} {cause : UnsupportedCause} (h : refuse d cell cause = .error e) :
    e = .unsupportedValue d cell.kindName cause := by
  cases h
  rfl

theorem floatLiteral_error {x : Binary64} (h : floatLiteral d x = .error e) :
    ∃ kind cause, e = .unsupportedValue d kind cause := by
  unfold floatLiteral at h
  split at h
  · cases h
  · cases d with
    | postgres => cases h
    | mysql => exact ⟨_, _, refuse_error h⟩
    | sqlite => exact ⟨_, _, refuse_error h⟩
    | sqlserver => exact ⟨_, _, refuse_error h⟩

theorem decimalLiteral_error {text : String} (h : decimalLiteral d text = .error e) :
    ∃ kind cause, e = .unsupportedValue d kind cause := by
  unfold decimalLiteral at h
  simp only at h
  split at h
  · cases h
  · exact ⟨_, _, refuse_error h⟩

theorem textLiteral_error {text : String} (h : textLiteral d text = .error e) :
    ∃ kind cause, e = .unsupportedValue d kind cause := by
  cases d with
  | postgres =>
    unfold textLiteral at h
    simp only at h
    split at h
    · exact ⟨_, _, refuse_error h⟩
    · cases h
  | mysql => cases h
  | sqlite => cases h
  | sqlserver => cases h

mutual

/-- A cell is refused for its value, or for that of an item of it. -/
theorem literal_error {cell : Cell} (h : literal d cell = .error e) :
    ∃ kind cause, e = .unsupportedValue d kind cause := by
  match cell with
  | .float x => exact floatLiteral_error (by simpa only [literal] using h)
  | .decimal text => exact decimalLiteral_error (by simpa only [literal] using h)
  | .text text => exact textLiteral_error (by simpa only [literal] using h)
  | .array items =>
    have ofItems : literals d items = .error e → ∃ kind cause, e = .unsupportedValue d kind cause :=
      fun refused => literals_error refused
    simp only [literal] at h
    split at h
    · split at h
      · cases h
      · split at h
        · cases h
        next refused =>
        cases h
        exact ofItems refused
    · cases h
  | .null | .boolean _ | .integer _ | .date _ | .time _ | .timestamp _ | .instant _ | .uuid _
  | .bytes _ | .json _ => simp [literal] at h

theorem literals_error {cells : List Cell} (h : literals d cells = .error e) :
    ∃ kind cause, e = .unsupportedValue d kind cause := by
  match cells with
  | [] => simp [literals] at h
  | cell :: rest =>
    simp only [literals] at h
    split at h
    · next refused =>
      cases h
      exact literal_error refused
    · split at h
      · cases h
      next refused =>
      cases h
      exact literals_error refused

end

theorem literal_fault {cell : Cell} (h : literal d cell = .error e) : c.Fault d e := by
  obtain ⟨kind, cause, rfl⟩ := literal_error h
  exact .unsupported kind cause

/-! ## Statements -/

theorem forEach_error {α β : Type} {f : α → Except Error β} {l : List α}
    (h : forEach f l = .error e) : ∃ a ∈ l, f a = .error e := by
  induction l with
  | nil => cases h
  | cons a rest ih =>
    unfold forEach at h
    split at h
    · next refused =>
      cases h
      exact ⟨a, List.mem_cons_self, refused⟩
    · split at h
      · cases h
      next refused =>
      cases h
      obtain ⟨b, mem, refused⟩ := ih refused
      exact ⟨b, List.mem_cons_of_mem a mem, refused⟩

theorem forColumns_error {β : Type} {row : Row} {f : String → Cell → Except Error β}
    (each : ∀ column cell, f column cell = .error e → c.Fault d e)
    (h : forColumns row f = .error e) : c.Fault d e := by
  obtain ⟨entry, -, refused⟩ := forEach_error h
  exact each entry.1 entry.2 refused

theorem isEmpty_of_forColumns {β : Type} {row : Row} {f : String → Cell → Except Error β}
    {parts : List β} (h : forColumns row f = .ok parts) (nothing : parts.isEmpty = true) :
    row.isEmpty = true := by
  unfold forColumns at h
  unfold Dict.isEmpty
  cases entries : row.entries with
  | nil => rfl
  | cons entry rest =>
    rw [entries, forEach] at h
    split at h
    · cases h
    · split at h
      · cases h
        cases nothing
      · cases h

theorem assignment_error {column : String} {cell : Cell}
    (h : assignment d column cell = .error e) : c.Fault d e := by
  unfold assignment at h
  cases found : literal d cell with
  | ok value =>
    rw [found] at h
    cases h
  | error refusal =>
    rw [found] at h
    cases h
    exact literal_fault found

theorem predicate_error {column : String} {cell : Cell}
    (h : predicate d column cell = .error e) : c.Fault d e := by
  unfold predicate at h
  split at h
  · cases h
  · split at h
    · cases h
    next refused =>
    cases h
    exact literal_fault refused

theorem whereClause_error (h : whereClause d c = .error e) : c.Fault d e := by
  unfold whereClause at h
  split at h
  · next unaddressed =>
    cases h
    exact .unaddressed unaddressed
  · next address _ =>
    cases found : forColumns address.columns (predicate d) with
    | ok parts =>
      rw [found] at h
      cases h
    | error refusal =>
      rw [found] at h
      cases h
      exact forColumns_error (fun _ _ refused => predicate_error refused) found

theorem bind_eq_error {ε α β : Type} {x : Except ε α} {f : α → Except ε β} {err : ε}
    (h : (x >>= f) = .error err) : x = .error err ∨ ∃ a, x = .ok a ∧ f a = .error err := by
  cases x with
  | error first =>
    cases h
    exact .inl rfl
  | ok a => exact .inr ⟨a, rfl, h⟩

theorem insertStatement_error {keyColumns : Option (List String)}
    (h : insertStatement d c keyColumns = .error e) : c.Fault d e := by
  unfold insertStatement at h
  simp only at h
  split at h
  · cases h
  · rcases bind_eq_error h with cells | ⟨_, -, rest⟩
    · exact forColumns_error (fun _ _ refused => literal_fault refused) cells
    · cases rest

theorem updateStatement_error (update : c.kind = .update) (h : updateStatement d c = .error e) :
    c.Fault d e := by
  unfold updateStatement at h
  rcases bind_eq_error h with assignments | ⟨parts, found, rest⟩
  · exact forColumns_error (fun _ _ refused => assignment_error refused) assignments
  · split at rest
    · next nothing =>
      cases rest
      exact .nothingToSet update (isEmpty_of_forColumns found nothing)
    · rcases bind_eq_error rest with condition | ⟨_, -, rest⟩
      · exact whereClause_error condition
      · cases rest

theorem deleteStatement_error (h : deleteStatement d c = .error e) : c.Fault d e := by
  unfold deleteStatement at h
  rcases bind_eq_error h with condition | ⟨_, -, rest⟩
  · exact whereClause_error condition
  · cases rest

theorem statement_error {keyColumns : KeyColumns} (h : statement d keyColumns c = .error e) :
    c.Fault d e := by
  unfold statement at h
  split at h
  · exact insertStatement_error h
  · next update => exact updateStatement_error update h
  · exact deleteStatement_error h

end Sql

/-- Changes that are not compiled have one among them that has no statement. -/
theorem Script.compile_error {threshold : Nat} {keyColumns : KeyColumns} {d : Dialect}
    {scope : Option Table} {changes : List Change} {e : Error}
    (h : Script.compile threshold keyColumns d scope changes = .error e) :
    ∃ c ∈ Script.covered scope changes, c.Fault d e := by
  unfold Script.compile at h
  cases found : Sql.forEach (Sql.statement d keyColumns) (Script.covered scope changes) with
  | ok statements =>
    simp only [found] at h
    cases h
  | error refusal =>
    simp only [found] at h
    cases h
    obtain ⟨c, mem, refused⟩ := Sql.forEach_error found
    exact ⟨c, mem, Sql.statement_error refused⟩

end DraftLedger
