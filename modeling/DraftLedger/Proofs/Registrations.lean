import DraftLedger.Proofs.Course
import DraftLedger.Proofs.KeyUniqueness
import Mathlib.Data.List.Induction

/-!
# Registered keys

The columns that identify the rows of a table are set, or chosen from what the database reports of the
table.  What is registered for a table is what was last set or chosen for it.  A detection that finds no
key says so and registers nothing, so that columns that were registered before stay.

* `Column.Identifies` : which columns identify a row.
* `Engine.said?`, `Engine.Stands` : what a move registers for a table, and what is registered after a run.
* `Engine.get?_perform` : one move.
* `Engine.run_stands` : a run.
-/

set_option autoImplicit false

namespace DraftLedger

/-! ## Choosing a key -/

namespace Column

/-- The columns that identify a row are those of the primary key in the order of their places, in each
place in the order in which they are reported; else the first one that is unique and never null. -/
inductive Identifies (columns : List Column) : Option (List String) → Prop
  | primaryKey (key : List (UInt32 × String)) (nonempty : key ≠ []) (perm : key.Perm (keyed columns))
      (ordered : key.Pairwise fun a b => a.1 ≤ b.1)
      (stable : ∀ place, (key.filter fun a => a.1 = place) =
        (keyed columns).filter fun a => a.1 = place) :
      Identifies columns (some (key.map (·.2)))
  | unique {before after : List Column} {c : Column} (keyless : keyed columns = [])
      (split : columns = before ++ c :: after) (unique : c.unique = true) (given : c.nullable = false)
      (first : ∀ b ∈ before, b.unique = true → b.nullable = true) :
      Identifies columns (some [c.name])
  | nothing (keyless : keyed columns = [])
      (never : ∀ c ∈ columns, c.unique = true → c.nullable = true) : Identifies columns none

def placed (a b : UInt32 × String) : Bool := a.1 ≤ b.1

theorem placed_trans (a b c : UInt32 × String) (h : placed a b = true) (h' : placed b c = true) :
    placed a c = true := by
  simp only [placed, decide_eq_true_eq] at h h' ⊢
  exact UInt32.le_trans h h'

theorem placed_total (a b : UInt32 × String) : (placed a b || placed b a) = true := by
  simpa [placed] using UInt32.le_total a.1 b.1

theorem filter_mergeSort_placed (key : List (UInt32 × String)) (place : UInt32) :
    ((key.mergeSort placed).filter fun a => a.1 = place) = key.filter fun a => a.1 = place := by
  have level : (key.filter fun a => a.1 = place).Pairwise fun a b => placed a b = true := by
    refine List.pairwise_filter.2 (List.pairwise_of_forall fun a b ha hb => ?_)
    simp only [decide_eq_true_eq] at ha hb
    simp [placed, ha, hb]
  have inside : (key.filter fun a => a.1 = place).Sublist (key.mergeSort placed) :=
    List.sublist_mergeSort placed_trans placed_total level List.filter_sublist
  have filtered := inside.filter fun a => decide (a.1 = place)
  simp only [List.filter_filter, Bool.and_self] at filtered
  exact (filtered.eq_of_length ((List.mergeSort_perm key placed).filter _).length_eq.symm).symm

theorem chooseKey?_identifies (columns : List Column) : Identifies columns (chooseKey? columns) := by
  unfold chooseKey?
  split
  · next keyless =>
    rw [List.isEmpty_iff] at keyless
    cases found : columns.find? fun c => c.unique && !c.nullable with
    | none =>
      refine .nothing keyless fun c mem unique => ?_
      simpa [unique] using List.find?_eq_none.1 found c mem
    | some c =>
      obtain ⟨fits, before, after, split, passed⟩ := List.find?_eq_some_iff_append.1 found
      rw [Bool.and_eq_true, Bool.not_eq_true'] at fits
      refine .unique keyless split fits.1 fits.2 fun b mem unique => ?_
      simpa [unique] using passed b mem
  · next given =>
    have perm := List.mergeSort_perm (keyed columns) placed
    have ordered := List.pairwise_mergeSort placed_trans placed_total (keyed columns)
    refine .primaryKey ((keyed columns).mergeSort placed) (fun empty => given ?_) perm ?_
      (filter_mergeSort_placed _)
    · rw [List.isEmpty_iff]
      exact List.nil_perm.1 (empty ▸ perm)
    · exact ordered.imp fun {a b} h => of_decide_eq_true h

theorem chooseKey?_ne_nil {columns : List Column} {key : List String}
    (chosen : chooseKey? columns = some key) : key ≠ [] := by
  have identifies := chosen ▸ chooseKey?_identifies columns
  cases identifies with
  | primaryKey key nonempty => simpa using nonempty
  | unique => exact List.cons_ne_nil _ _

end Column

/-! ## Registrations -/

theorem Ledger.get?_setKeyColumns (l : Ledger) (table : Table) (columns : List String) (t : Table) :
    (l.setKeyColumns table columns).keyColumns.get? t =
      if table = t then (if columns = [] then none else some columns) else l.keyColumns.get? t := by
  simp only [setKeyColumns, List.isEmpty_iff, eq_comm (a := table)]
  split
  · exact Dict.get?_erase ..
  · exact Dict.get?_insert ..

namespace Engine

variable {e : Engine} {m : Move} {moves : List Move} {table : Table} {key : Option (List String)}

/-- What a move registers for a table, if it says anything of it. To set no columns takes the
registration back, and so does opening the engine again; a detection that finds no key says nothing. -/
def said? (e : Engine) (m : Move) (table : Table) : Option (Option (List String)) :=
  match m with
  | .setKeyColumns t columns =>
    if t = table then some (if columns = [] then none else some columns) else none
  | .detectKeys handle t =>
    if t = table then
      match e.database.fetchColumns handle t with
      | .ok columns => (Column.chooseKey? columns).map some
      | .error _ => none
    else none
  | .reopen => some none
  | _ => none

/-- No move of a run says anything of the key of a table. -/
def Silent (e : Engine) (table : Table) : List Move → Prop
  | [] => True
  | m :: rest => e.said? m table = none ∧ (e.perform m).Silent table rest

/-- What is registered for a table after a run: what was said last of it, else what was registered
before. -/
inductive Stands (e : Engine) (table : Table) : List Move → Option (List String) → Prop
  | before {moves : List Move} (silent : e.Silent table moves) :
      Stands e table moves (e.ledger.keyColumns.get? table)
  | said {front back : List Move} {m : Move} {key : Option (List String)}
      (said : (e.run front).said? m table = some key)
      (silent : (e.run (front ++ [m])).Silent table back) : Stands e table (front ++ m :: back) key

theorem detectKeys_cases (e : Engine) (handle : ConnectionHandle) (table : Table) :
    (∃ failure, e.database.fetchColumns handle table = .error failure ∧
      e.detectKeys handle table = (.error (.metadata table failure.message), e)) ∨
    ∃ columns, e.database.fetchColumns handle table = .ok columns ∧
      e.detectKeys handle table = (.ok (Column.chooseKey? columns),
        (Column.chooseKey? columns).elim e (e.setKeyColumns table)) := by
  unfold detectKeys
  cases e.database.fetchColumns handle table with
  | error failure => exact .inl ⟨failure, rfl, rfl⟩
  | ok columns =>
    refine .inr ⟨columns, rfl, ?_⟩
    dsimp only
    cases Column.chooseKey? columns <;> rfl

theorem get?_detectKeys (e : Engine) (handle : ConnectionHandle) (t : Table) (table : Table) :
    (e.detectKeys handle t).2.ledger.keyColumns.get? table =
      (e.said? (.detectKeys handle t) table).getD (e.ledger.keyColumns.get? table) := by
  rcases e.detectKeys_cases handle t with ⟨failure, fetched, eq⟩ | ⟨columns, fetched, eq⟩
  · simp [eq, said?, fetched]
  · simp only [eq, said?, fetched]
    cases chosen : Column.chooseKey? columns with
    | none => simp
    | some key =>
      have nonempty := Column.chooseKey?_ne_nil chosen
      simp only [Option.elim_some, setKeyColumns, Ledger.get?_setKeyColumns, if_neg nonempty]
      split <;> rfl

/-- What is registered for a table is what a move says of it, and stays if the move says nothing. -/
theorem get?_perform (e : Engine) (m : Move) (table : Table) :
    (e.perform m).ledger.keyColumns.get? table =
      (e.said? m table).getD (e.ledger.keyColumns.get? table) := by
  cases about : e.sessionOf? m with
  | some s =>
    have none : e.said? m table = none := by
      cases m <;> first | rfl | cases about
    rw [(e.perform_course about).others.1, none, Option.getD_none]
  | none =>
    cases m with
    | setKeyColumns t columns =>
      rw [perform, Engine.setKeyColumns, Ledger.get?_setKeyColumns, said?]
      split <;> rfl
    | detectKeys handle t => exact e.get?_detectKeys handle t table
    | finishApply id | abandonApply id =>
      have found : e.call? id = none := Option.map_eq_none_iff.1 about
      simp only [perform, finishApply, abandonApply, found]
      rfl
    | reopen | subscribe | unsubscribe | reportColumns | failNext | storage => rfl
    | _ => cases about

theorem silent_concat :
    e.Silent table (moves ++ [m]) ↔ e.Silent table moves ∧ (e.run moves).said? m table = none := by
  induction moves generalizing e with
  | nil => exact and_comm
  | cons first rest ih => exact (and_congr_right fun _ => ih).trans and_assoc.symm

theorem run_concat (e : Engine) (moves : List Move) (m : Move) :
    e.run (moves ++ [m]) = (e.run moves).perform m := e.run_append moves [m]

theorem Silent.get?_run (silent : e.Silent table moves) :
    (e.run moves).ledger.keyColumns.get? table = e.ledger.keyColumns.get? table := by
  induction moves generalizing e with
  | nil => rfl
  | cons m rest ih =>
    obtain ⟨now, later⟩ := silent
    have step : (e.perform m).ledger.keyColumns.get? table = e.ledger.keyColumns.get? table := by
      rw [get?_perform, now, Option.getD_none]
    exact (ih later).trans step

theorem run_stands (e : Engine) (table : Table) (moves : List Move) :
    e.Stands table moves ((e.run moves).ledger.keyColumns.get? table) := by
  induction moves using List.reverseRecOn with
  | nil => exact .before trivial
  | append_singleton moves m ih =>
    rw [run_concat, get?_perform]
    cases last : (e.run moves).said? m table with
    | some key => exact .said last trivial
    | none =>
      rw [Option.getD_none]
      generalize (e.run moves).ledger.keyColumns.get? table = key at ih
      cases ih with
      | before silent => exact .before (silent_concat.2 ⟨silent, last⟩)
      | @said front back first key said silent =>
        rw [List.append_assoc, List.cons_append]
        refine .said said (silent_concat.2 ⟨silent, ?_⟩)
        rwa [← run_append, List.append_assoc, List.singleton_append]

end Engine

end DraftLedger
