import DraftLedger.Proofs.Statements

/-!
# Scripts of one table

A script of one table is the part of the script of all tables that comes from the changes of the table,
and nothing else of the changes or of the key columns matters to it.

* `Script.itemsOn` : the items that stand where the changes of a table stand.
* `Script.PartOf`, `Script.compile_part` : the script of a table is a part of the script of all tables.
* `Script.compile_append_iff` : the statements of two lists, one behind the other.
* `Script.compile_congr` : what the script of a table depends on.
-/

set_option autoImplicit false

namespace DraftLedger

namespace Sql

theorem forEach_eq_ok_iff {α β : Type} {f : α → Except Error β} {l : List α} {m : List β} :
    forEach f l = .ok m ↔ List.Forall₂ (fun a b => f a = .ok b) l m := by
  refine ⟨forall₂_of_forEach, fun each => ?_⟩
  induction each with
  | nil => rfl
  | cons first _ ih => simp only [forEach, first, ih]

theorem forEach_congr {α β : Type} {f g : α → Except Error β} {l : List α}
    (same : ∀ a ∈ l, f a = g a) : forEach f l = forEach g l := by
  induction l with
  | nil => rfl
  | cons a rest ih =>
    obtain ⟨first, others⟩ := List.forall_mem_cons.1 same
    simp only [forEach, first, ih others]

theorem statement_congr {d : Dialect} {keyColumns keyColumns' : KeyColumns} {c : Change}
    (same : keyColumns.get? c.table = keyColumns'.get? c.table) :
    statement d keyColumns c = statement d keyColumns' c := by
  unfold statement
  rw [same]

end Sql

namespace Script

variable {threshold : Nat} {keyColumns keyColumns' : KeyColumns} {d : Dialect}
  {scope : Option Table} {table : Table} {changes changes' : List Change} {script whole : Script}

/-! ## Parts -/

/-- The items that stand where the changes of a table stand. -/
def itemsOn {α : Type} (table : Table) (changes : List Change) (items : List α) : List α :=
  ((changes.zip items).filter fun e => e.1.table = table).map Prod.snd

theorem itemsOn_map {α : Type} (table : Table) (changes : List Change) (f : Change → α) :
    itemsOn table changes (changes.map f) = (changes.filter fun c => c.table = table).map f := by
  unfold itemsOn
  induction changes with
  | nil => rfl
  | cons c rest ih => by_cases here : c.table = table <;> simp [here, ih]

theorem forall₂_itemsOn {α : Type} {R : Change → α → Prop} {items : List α}
    (h : List.Forall₂ R changes items) (table : Table) :
    List.Forall₂ R (changes.filter fun c => c.table = table) (itemsOn table changes items) := by
  unfold itemsOn
  induction h with
  | nil => exact .nil
  | @cons c _ _ _ first _ ih => by_cases here : c.table = table <;> simp [here, first, ih]

/-- The script of one table has what the script of all tables has at the places of the changes of that
table, in their order. -/
structure PartOf (whole : Script) (changes : List Change) (table : Table) (part : Script) : Prop where
  statements : part.statements = itemsOn table changes whole.statements
  changeIds : part.changeIds = itemsOn table changes whole.changeIds
  fullRowChanges :
    part.fullRowChanges = itemsOn table (changes.filter isFullRowChange) whole.fullRowChanges
  count : part.statements.length = (changes.filter fun c => c.table = table).length

theorem compile_of_forall₂ {statements : List String} (threshold : Nat)
    (each : List.Forall₂ (fun c s => Sql.statement d keyColumns c = .ok s) (covered scope changes)
      statements) :
    ∃ script, compile threshold keyColumns d scope changes = .ok script ∧
      script.statements = statements := by
  unfold compile
  simp only [Sql.forEach_eq_ok_iff.2 each]
  exact ⟨_, rfl, rfl⟩

theorem compile_part (h : compile threshold keyColumns d none changes = .ok whole) (table : Table) :
    ∃ part, compile threshold keyColumns d (some table) changes = .ok part ∧
      whole.PartOf changes table part := by
  have compiles := compiles_of_compile h
  have each : List.Forall₂ (fun c s => Sql.statement d keyColumns c = .ok s)
      (covered (some table) changes) (itemsOn table changes whole.statements) :=
    forall₂_itemsOn (Sql.forall₂_of_forEach compiles.statements) table
  obtain ⟨part, compiled, statements⟩ := compile_of_forall₂ threshold each
  have compiles' := compiles_of_compile compiled
  refine ⟨part, compiled, statements, ?_, ?_, ?_⟩
  · rw [compiles'.changeIds, compiles.changeIds]
    exact (itemsOn_map table changes _).symm
  · rw [compiles'.fullRowChanges, compiles.fullRowChanges]
    have apart := itemsOn_map table (changes.filter isFullRowChange) (·.id)
    rw [List.filter_comm] at apart
    exact apart.symm
  · rw [statements]
    exact each.length_eq.symm

/-- The statements of two lists, one behind the other, are the statements of the first one and those of
the second one, and they are all there when those of the two lists are. -/
theorem compile_append_iff (threshold : Nat) (keyColumns : KeyColumns) (d : Dialect)
    (scope : Option Table) (front back : List Change) (statements : List String) :
    (∃ script, compile threshold keyColumns d scope (front ++ back) = .ok script ∧
        script.statements = statements) ↔
      ∃ first second, compile threshold keyColumns d scope front = .ok first ∧
        compile threshold keyColumns d scope back = .ok second ∧
        statements = first.statements ++ second.statements := by
  have parts : covered scope (front ++ back) = covered scope front ++ covered scope back := by
    cases scope with
    | none => rfl
    | some table => exact List.filter_append _ _
  constructor
  · rintro ⟨script, compiled, rfl⟩
    have each := Sql.forall₂_of_forEach (compiles_of_compile compiled).statements
    rw [parts] at each
    have each₁ := List.forall₂_take (covered scope front).length each
    have each₂ := List.forall₂_drop (covered scope front).length each
    rw [List.take_left] at each₁
    rw [List.drop_left] at each₂
    obtain ⟨first, compiled₁, statements₁⟩ := compile_of_forall₂ threshold each₁
    obtain ⟨second, compiled₂, statements₂⟩ := compile_of_forall₂ threshold each₂
    refine ⟨first, second, compiled₁, compiled₂, ?_⟩
    rw [statements₁, statements₂, List.take_append_drop]
  · rintro ⟨first, second, compiled₁, compiled₂, rfl⟩
    have each₁ := Sql.forall₂_of_forEach (compiles_of_compile compiled₁).statements
    have each₂ := Sql.forall₂_of_forEach (compiles_of_compile compiled₂).statements
    refine compile_of_forall₂ threshold ?_
    rw [parts]
    exact List.rel_append each₁ each₂

/-- The script of a table depends on its changes and on its key columns alone. -/
theorem compile_congr (part : covered (some table) changes = covered (some table) changes')
    (same : keyColumns.get? table = keyColumns'.get? table) (threshold : Nat) (d : Dialect) :
    compile threshold keyColumns d (some table) changes =
      compile threshold keyColumns' d (some table) changes' := by
  have statements : Sql.forEach (Sql.statement d keyColumns) (covered (some table) changes) =
      Sql.forEach (Sql.statement d keyColumns') (covered (some table) changes) := by
    refine Sql.forEach_congr fun c hc => Sql.statement_congr ?_
    have here : c.table = table := of_decide_eq_true (List.mem_filter.1 hc).2
    rw [here, same]
  rw [part] at statements
  unfold compile
  simp only [part, statements]

end Script

end DraftLedger
