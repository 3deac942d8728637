import DraftLedger.Proofs.LedgerView
import DraftLedger.Proofs.Sample
import Mathlib.Data.List.Basic

/-!
# Merging keeps the net effect of the edits

The changes that a session holds for a table say what is to happen to its rows.  So do the edits
that were asked for, one after another.  Where every edit names its row by the key columns of the
table and leaves the key as it is, both say the same.

* `Change.execute`, `Edit.execute` : what a change and an edit do to the rows of a table.
* `Change.OnKey`, `Tidy` : changes of different rows, told apart by keys over given columns.
* `execute_comm` : changes of different rows go in either order.
* `execute_stage` : a staged change does what it does after all others.
* `execute_recordAll` : the changes of a session do what the accepted edits do.
-/

set_option autoImplicit false

namespace DraftLedger

/-! ## What changes and edits do to rows -/

/-- Whether a key points at a row. No row is pointed at without a key. -/
def Row.isAt (row : Row) (key : Option Row) : Bool := (key.map row.covers).getD false

/-- An insertion adds its values as the last row, an update lays them over the rows that its key
points at, and a deletion drops those rows. -/
def ChangeKind.execute (kind : ChangeKind) (key : Option Row) (values : Row) (rows : List Row) :
    List Row :=
  match kind with
  | .insert => rows ++ [values]
  | .update => rows.map fun row => if row.isAt key then row.overlay values else row
  | .delete => rows.filter fun row => !row.isAt key

/-- What a change does to the rows of its table. -/
def Change.execute (c : Change) (rows : List Row) : List Row :=
  c.kind.execute c.usableKey? (c.newValues.getD Dict.empty) rows

/-- What changes do one after another. -/
def executeAll (changes : List Change) (rows : List Row) : List Row :=
  changes.foldl (fun rows c => c.execute rows) rows

@[simp] theorem executeAll_singleton (c : Change) (rows : List Row) :
    executeAll [c] rows = c.execute rows := rfl

theorem executeAll_append (before after : List Change) (rows : List Row) :
    executeAll (before ++ after) rows = executeAll after (executeAll before rows) :=
  List.foldl_append

/-- The values that an edit gives its row. -/
def Edit.newValues : Edit → Row
  | .insert _ values _ => values
  | .update _ _ _ new => new
  | .delete .. => Dict.empty

@[simp] theorem Edit.insert_newValues (t : Table) (values : Row) (key : Option Row) :
    (insert t values key).newValues = values := rfl

@[simp] theorem Edit.update_newValues (t : Table) (key : Option Row) (old new : Row) :
    (update t key old new).newValues = new := rfl

@[simp] theorem Edit.delete_newValues (t : Table) (key : Option Row) (old : Row) :
    (delete t key old).newValues = Dict.empty := rfl

/-- What an edit does to the rows of its table, its key being the one given or the one over the
registered columns. -/
def Edit.execute (keyColumns : KeyColumns) (e : Edit) (rows : List Row) : List Row :=
  e.kind.execute (e.withRegisteredKey keyColumns).usableKey? e.newValues rows

/-- Records edits one after another, each with its identifier and at its wall time: the ledger
afterwards, and the edits that were accepted. -/
def Ledger.recordAll (l : Ledger) (s : SessionId) :
    List (Edit × ChangeId × UInt64) → Ledger × List Edit
  | [] => (l, [])
  | (edit, id, now) :: rest =>
    let step := l.record s edit id now
    let (final, accepted) := step.ledger.recordAll s rest
    match step.answer with
    | .ok _ => (final, edit :: accepted)
    | .error _ => (final, accepted)

/-! ## One row of an update or deletion -/

namespace Change

/-- What an update or deletion does to one row. -/
def rewrite (c : Change) (row : Row) : Option Row :=
  if row.isAt c.usableKey? then
    if c.kind = .delete then none else some (row.overlay (c.newValues.getD Dict.empty))
  else some row

theorem execute_insert {c : Change} (h : c.kind = .insert) (rows : List Row) :
    c.execute rows = rows ++ [c.newValues.getD Dict.empty] := by
  simp only [execute, h, ChangeKind.execute]

theorem execute_rewrite {c : Change} (h : c.kind ≠ .insert) (rows : List Row) :
    c.execute rows = rows.filterMap c.rewrite := by
  unfold execute
  cases kind : c.kind with
  | insert => exact absurd kind h
  | update =>
    rw [ChangeKind.execute, ← List.filterMap_eq_map]
    congr 1
    funext row
    by_cases at_ : row.isAt c.usableKey? = true <;> simp [rewrite, kind, at_]
  | delete =>
    rw [ChangeKind.execute, ← List.filterMap_eq_filter]
    congr 1
    funext row
    by_cases at_ : row.isAt c.usableKey? = true <;> simp [rewrite, kind, at_, Option.guard]

/-- The change points at its row by a key over the columns, an update keeps that key, and an insertion
brings a row with it, while no row of the table has it. -/
structure ByKey (columns : List String) (base : List Row) (c : Change) (key : Row) : Prop where
  usable : c.usableKey? = some key
  spans : key.SpansOver columns
  updated : c.kind = .update → (c.newValues.getD Dict.empty).KeepsKey key
  inserted : c.kind = .insert →
    (∀ row ∈ base, row.covers key = false) ∧ Row.covers (c.newValues.getD Dict.empty) key = true

/-- The change is of the table and points at its row by a key that its values keep. -/
structure OnKey (table : Table) (columns : List String) (base : List Row) (c : Change)
    (key : Row) : Prop extends ByKey columns base c key where
  table : c.table = table
  keeps : (c.newValues.getD Dict.empty).KeepsKey key

section OnKey

variable {table : Table} {columns : List String} {base rows : List Row}
  {a c : Change} {key key' other : Row}

theorem OnKey.intro (table' : c.table = table) (usable : c.usableKey? = some key)
    (spans : key.SpansOver columns) (keeps : (c.newValues.getD Dict.empty).KeepsKey key)
    (inserted : c.kind = .insert → (∀ row ∈ base, row.covers key = false) ∧
      Row.covers (c.newValues.getD Dict.empty) key = true) : c.OnKey table columns base key :=
  ⟨⟨usable, spans, fun _ => keeps, inserted⟩, table', keeps⟩

theorem ByKey.isAt (h : c.ByKey columns base key) (row : Row) :
    row.isAt c.usableKey? = row.covers key := by
  simp [Row.isAt, h.usable]

theorem ByKey.rewrite_of_not_covers (h : c.ByKey columns base key) {row : Row}
    (uncovered : row.covers key = false) : c.rewrite row = some row := by
  simp [rewrite, h.isAt, uncovered]

theorem ByKey.keepsKey (h : c.ByKey columns base key) (kept : c.kind ≠ .delete) :
    (c.newValues.getD Dict.empty).KeepsKey key := by
  cases kind : c.kind with
  | insert => exact Row.keepsKey_of_covers (h.inserted kind).2
  | update => exact h.updated kind
  | delete => exact absurd kind kept

theorem ByKey.covers_rewrite (h : c.ByKey columns base key) (spans : other.SpansOver columns)
    {row row' : Row} (hr : c.rewrite row = some row') : row'.covers other = row.covers other := by
  unfold rewrite at hr
  rw [h.isAt] at hr
  split at hr
  · next covered =>
    split at hr
    · cases hr
    · next kept =>
      cases hr
      exact Row.covers_overlay (h.keepsKey kept) h.spans spans covered
  · cases hr
    rfl

theorem not_covers_of_covers (ha : a.ByKey columns base key) (hc : c.ByKey columns base key')
    (differ : (key == key') = false) {row : Row} (covered : row.covers key = true) :
    row.covers key' = false := by
  refine Bool.eq_false_iff.2 fun covered' => ?_
  have same := Row.beq_of_covers ha.spans hc.spans covered covered'
  rw [differ] at same
  cases same

/-- What one change makes of a row is left alone by a change whose key the row has not. -/
theorem rewrite_bind (ha : a.OnKey table columns base key)
    (hc : c.OnKey table columns base key') {row : Row}
    (uncovered : row.covers key' = false) : (a.rewrite row).bind c.rewrite = a.rewrite row := by
  cases hr : a.rewrite row with
  | none => rfl
  | some row' => exact hc.rewrite_of_not_covers ((ha.covers_rewrite hc.spans hr).trans uncovered)

theorem rewrite_comm (ha : a.OnKey table columns base key) (hc : c.OnKey table columns base key')
    (differ : (key == key') = false) (row : Row) :
    (a.rewrite row).bind c.rewrite = (c.rewrite row).bind a.rewrite := by
  by_cases covered : row.covers key = true
  · have uncovered := not_covers_of_covers ha.toByKey hc.toByKey differ covered
    rw [rewrite_bind ha hc uncovered, hc.rewrite_of_not_covers uncovered]
    rfl
  · have uncovered : row.covers key = false := by simpa using covered
    rw [rewrite_bind hc ha uncovered, ha.rewrite_of_not_covers uncovered]
    rfl

/-- An update or deletion goes before or after any change of another row. -/
theorem execute_comm (ha : a.OnKey table columns base key) (hc : c.OnKey table columns base key')
    (differ : (key == key') = false) (hk : c.kind ≠ .insert) (rows : List Row) :
    c.execute (a.execute rows) = a.execute (c.execute rows) := by
  by_cases insertion : a.kind = .insert
  · have uncovered : Row.covers (a.newValues.getD Dict.empty) key' = false :=
      not_covers_of_covers ha.toByKey hc.toByKey differ (ha.inserted insertion).2
    rw [execute_insert insertion, execute_insert insertion, execute_rewrite hk, execute_rewrite hk,
      List.filterMap_append]
    simp [hc.rewrite_of_not_covers uncovered]
  · rw [execute_rewrite insertion, execute_rewrite insertion, execute_rewrite hk,
      execute_rewrite hk, List.filterMap_filterMap, List.filterMap_filterMap]
    congr 1
    funext row
    exact rewrite_comm ha hc differ row

theorem execute_uncovered (ha : a.ByKey columns base key) (spans : other.SpansOver columns)
    (differ : (key == other) = false) (free : ∀ row ∈ rows, row.covers other = false) :
    ∀ row ∈ a.execute rows, row.covers other = false := by
  intro row hrow
  by_cases insertion : a.kind = .insert
  · rw [execute_insert insertion, List.mem_append, List.mem_singleton] at hrow
    rcases hrow with hrow | rfl
    · exact free row hrow
    · refine Bool.eq_false_iff.2 fun covered => ?_
      have same := Row.beq_of_covers ha.spans spans (ha.inserted insertion).2 covered
      rw [differ] at same
      cases same
  · rw [execute_rewrite insertion, List.mem_filterMap] at hrow
    obtain ⟨before, hbefore, hr⟩ := hrow
    exact (ha.covers_rewrite spans hr).trans (free before hbefore)

/-! ## Taking in -/

theorem OnKey.takeIn (ha : a.OnKey table columns base key) (hc : c.OnKey table columns base key')
    (same : (key' == key) = true) (hk : c.kind ≠ .insert) {changed : Change} {outcome : Outcome}
    (h : a.takeIn c = .ok (some changed, outcome)) :
    ∃ now, changed.OnKey table columns base now ∧ (now == key) = true := by
  have keeps : (c.newValues.getD Dict.empty).KeepsKey key := Row.keepsKey_of_beq same hc.keeps
  have merged := ha.keeps.overlay keeps
  have used := usableKey?_eq_some.1 ha.usable
  have onTable := (takeIn_identity h hk).2.trans ha.table
  rcases takeIn_cases h hk with ⟨-, -, e, -⟩ | ⟨insertion, -, e, -⟩ | ⟨update, -, e, -⟩ |
    ⟨update, -, e, -⟩
  · cases e
  · cases e
    have known : (a.withNewValues c.newValues).usableKey? = some key :=
      usableKey?_eq_some.2 (by simpa using used)
    obtain ⟨now, hnow, eq⟩ := currentKey?_of_keepsKey known (by simpa using merged)
    have nonempty : now.isEmpty = false := by
      obtain ⟨now', hnow', same'⟩ := currentKey?_isSome known
      obtain rfl := Option.some.inj (hnow.symm.trans hnow')
      exact same'.trans used.2
    have covered := Row.covers_overlay_self keeps (ha.inserted insertion).2
    refine ⟨now, .intro onTable (usableKey?_eq_some.2 ⟨hnow, nonempty⟩) ?_ ?_ fun _ => ⟨?_, ?_⟩, eq⟩
    · exact Row.spansOver_of_beq (BEq.symm eq) ha.spans
    · simpa using Row.keepsKey_of_beq (BEq.symm eq) merged
    · exact fun row hrow => (Row.covers_congr eq).trans ((ha.inserted insertion).1 row hrow)
    · simpa using (Row.covers_congr eq).trans covered
  · cases e
    refine ⟨key, .intro onTable (usableKey?_eq_some.2 (by simpa using used)) ha.spans ?_ ?_, BEq.rfl⟩
    · exact fun column v w hv _ => by simp at hv
    · simp
  · cases e
    refine ⟨key, .intro onTable (usableKey?_eq_some.2 (by simpa using used)) ha.spans ?_ ?_, BEq.rfl⟩
    · simpa using merged
    · simp [update]

theorem execute_takeIn (ha : a.OnKey table columns base key) (hc : c.OnKey table columns base key')
    (same : (key' == key) = true) (hk : c.kind ≠ .insert)
    (free : a.kind = .insert → ∀ row ∈ rows, row.covers key = false) {taken : Option Change}
    {outcome : Outcome} (h : a.takeIn c = .ok (taken, outcome)) :
    executeAll taken.toList rows = c.execute (a.execute rows) := by
  have pointed (row : Row) : row.isAt c.usableKey? = row.covers key :=
    (hc.isAt row).trans (Row.covers_congr same)
  -- An update or deletion of the row of an insertion leaves the rows before it alone.
  have untouched (insertion : a.kind = .insert) : rows.filterMap c.rewrite = rows := by
    refine (List.filterMap_congr fun row hrow => ?_).trans List.filterMap_some
    simp [rewrite, pointed, free insertion row hrow]
  rcases takeIn_cases h hk with ⟨insertion, deletion, rfl, -⟩ | ⟨insertion, update, rfl, -⟩ |
    ⟨update, deletion, rfl, -⟩ | ⟨update, update', rfl, -⟩
  · have covered := (ha.inserted insertion).2
    rw [execute_insert insertion, execute_rewrite hk, List.filterMap_append, untouched insertion]
    simp [executeAll, rewrite, pointed, covered, deletion]
  · have covered := (ha.inserted insertion).2
    have insertion' : (a.insertAfter c).kind = .insert := by simpa using insertion
    rw [execute_insert insertion, execute_rewrite hk, List.filterMap_append, untouched insertion,
      Option.toList_some, executeAll_singleton, execute_insert insertion']
    simp [rewrite, pointed, covered, update]
  · have own (row : Row) : row.isAt (a.deleteAfter c).usableKey? = row.covers key := by
      simp [← ha.isAt, usableKey?]
    rw [execute_rewrite (c := a) (by simp [update]), execute_rewrite hk,
      List.filterMap_filterMap, Option.toList_some, executeAll_singleton,
      execute_rewrite (by simp)]
    refine List.filterMap_congr fun row _ => ?_
    by_cases covered : row.covers key = true
    · have kept := Row.covers_overlay_self ha.keeps covered
      simp [rewrite, own, ha.isAt, pointed, covered, kept, update, deletion]
    · simp [rewrite, own, ha.isAt, pointed, covered]
  · have own (row : Row) : row.isAt (a.updateAfter c).usableKey? = row.covers key := by
      simp [← ha.isAt, usableKey?]
    rw [execute_rewrite (c := a) (by simp [update]), execute_rewrite hk,
      List.filterMap_filterMap, Option.toList_some, executeAll_singleton,
      execute_rewrite (by simp [update])]
    refine List.filterMap_congr fun row _ => ?_
    by_cases covered : row.covers key = true
    · have kept := Row.covers_overlay_self ha.keeps covered
      simp [rewrite, own, ha.isAt, pointed, covered, kept, update, update', Dict.overlay_assoc]
    · simp [rewrite, own, ha.isAt, pointed, covered]

end OnKey

end Change

/-! ## Changes of different rows -/

section Tidy

variable {table : Table} {columns : List String} {base : List Row}
  {changes result : List Change} {a existing incoming : Change} {key key' : Row}
  {outcome : Outcome}

/-- Changes of a table, of rows with keys over the columns, each of another row. -/
structure Tidy (table : Table) (columns : List String) (base : List Row)
    (changes : List Change) : Prop where
  onKey : ∀ c ∈ changes, ∃ key, c.OnKey table columns base key
  apart : Apart changes

namespace Change.OnKey

theorem primaryKey (ha : a.OnKey table columns base key) : a.primaryKey = some key :=
  (usableKey?_eq_some.1 ha.usable).1

theorem sharesKey (ha : a.OnKey table columns base key)
    (hc : incoming.OnKey table columns base key') (same : (key == key') = true) :
    a.SharesKey incoming :=
  ⟨ha.table.trans hc.table.symm, key, key', ha.primaryKey, hc.primaryKey, same⟩

theorem differ (ha : a.OnKey table columns base key)
    (hc : incoming.OnKey table columns base key') (h : ¬ a.SharesKey incoming) :
    (key == key') = false :=
  Bool.eq_false_iff.2 fun same => h (ha.sharesKey hc same)

theorem isTargetedBy_iff (ha : a.OnKey table columns base key) :
    a.isTargetedBy (.key key') = true ↔ (key' == key) = true :=
  isTargetedBy_key_iff_of_keepsKey ha.usable ha.keeps

end Change.OnKey

theorem executeAll_uncovered (hc : incoming.OnKey table columns base key)
    (onKey : ∀ c ∈ changes, ∃ key, c.OnKey table columns base key)
    (apart : ∀ c ∈ changes, ¬ c.SharesKey incoming) {rows : List Row}
    (free : ∀ row ∈ rows, row.covers key = false) :
    ∀ row ∈ executeAll changes rows, row.covers key = false := by
  induction changes generalizing rows with
  | nil => exact free
  | cons c rest ih =>
    obtain ⟨own, ho⟩ := onKey c List.mem_cons_self
    have differ := ho.differ hc (apart c List.mem_cons_self)
    exact ih (fun d hd => onKey d (List.mem_cons_of_mem c hd))
      (fun d hd => apart d (List.mem_cons_of_mem c hd))
      (Change.execute_uncovered ho.toByKey hc.spans differ free)

theorem executeAll_comm (hc : incoming.OnKey table columns base key)
    (hk : incoming.kind ≠ .insert)
    (onKey : ∀ c ∈ changes, ∃ key, c.OnKey table columns base key)
    (apart : ∀ c ∈ changes, ¬ c.SharesKey incoming) (rows : List Row) :
    incoming.execute (executeAll changes rows) = executeAll changes (incoming.execute rows) := by
  induction changes generalizing rows with
  | nil => rfl
  | cons c rest ih =>
    obtain ⟨own, ho⟩ := onKey c List.mem_cons_self
    have differ := ho.differ hc (apart c List.mem_cons_self)
    calc incoming.execute (executeAll rest (c.execute rows))
        = executeAll rest (incoming.execute (c.execute rows)) :=
          ih (fun d hd => onKey d (List.mem_cons_of_mem c hd))
            (fun d hd => apart d (List.mem_cons_of_mem c hd)) _
      _ = executeAll rest (c.execute (incoming.execute rows)) := by
          rw [Change.execute_comm ho hc differ hk]

theorem Tidy.append (tidy : Tidy table columns base changes)
    (hc : incoming.OnKey table columns base key)
    (free : ∀ c ∈ changes, ¬ c.Receives table (.key key)) :
    Tidy table columns base (changes ++ [incoming]) := by
  refine ⟨fun c hm => ?_, apart_middle.2 ⟨fun c hm sharing => ?_, ?_⟩⟩
  · rcases List.mem_append.1 hm with hm | hm
    · exact tidy.onKey c hm
    · exact ⟨key, List.mem_singleton.1 hm ▸ hc⟩
  · rw [List.append_nil] at hm
    obtain ⟨own, ho⟩ := tidy.onKey c hm
    obtain ⟨-, key', own', hk, hown, same⟩ := sharing
    obtain rfl : key = key' := Option.some.inj (hc.primaryKey.symm.trans hk)
    obtain rfl : own = own' := Option.some.inj (ho.primaryKey.symm.trans hown)
    exact free c hm ⟨ho.table, ho.isTargetedBy_iff.2 same⟩
  · rw [List.append_nil]
    exact tidy.apart

theorem Tidy.replace {before after : List Change}
    (tidy : Tidy table columns base (before ++ existing :: after)) {taken : Option Change}
    (onRow : ∀ c ∈ taken, c.SharesKey existing ∧ ∃ key, c.OnKey table columns base key) :
    Tidy table columns base (before ++ taken.toList ++ after) := by
  obtain ⟨others, rest⟩ := apart_middle.1 tidy.apart
  have kept : ∀ c ∈ before ++ after, ∃ key, c.OnKey table columns base key := fun c hm =>
    tidy.onKey c (others_subset hm)
  cases taken with
  | none => simpa using Tidy.mk kept rest
  | some changed =>
    obtain ⟨alike, onKey⟩ := onRow changed rfl
    rw [Option.toList_some, List.append_assoc, List.singleton_append]
    refine ⟨fun c hm => ?_, apart_middle.2 ⟨fun d hd sharing => ?_, rest⟩⟩
    · simp only [List.mem_append, List.mem_cons] at hm kept
      rcases hm with hm | rfl | hm
      · exact kept c (.inl hm)
      · exact onKey
      · exact kept c (.inr hm)
    · exact others d hd (alike.symm.trans sharing)

/-- Staging a change that points at its row by its key keeps a list of changes tidy, and the list
then does what it did followed by what the change does. -/
theorem execute_stage (tidy : Tidy table columns base changes)
    (hc : incoming.OnKey table columns base key)
    (h : stage changes incoming = .ok (result, outcome)) :
    Tidy table columns base result ∧
      executeAll result base = incoming.execute (executeAll changes base) := by
  have addressed : incoming.address? = some (.key key) := by simp [Change.address?, hc.usable]
  obtain ⟨address, found, staged⟩ := stage_cases h
  obtain rfl : Address.key key = address := Option.some.inj (addressed.symm.trans found)
  rcases staged with ⟨rfl, -, ⟨-, full⟩ | free⟩ |
    ⟨notInsert, before, existing, after, taken, rfl, -, receives, takes, rfl⟩
  · cases full
  · exact ⟨tidy.append hc (hc.table ▸ free), executeAll_append ..⟩
  · obtain ⟨own, ho⟩ := tidy.onKey existing (by simp)
    have same : (key == own) = true := ho.isTargetedBy_iff.1 receives.2
    have shares : existing.SharesKey incoming := ho.sharesKey hc (BEq.symm same)
    obtain ⟨others, -⟩ := apart_middle.1 tidy.apart
    have onBefore : ∀ c ∈ before, ∃ key, c.OnKey table columns base key := fun c hc =>
      tidy.onKey c (List.mem_append_left _ hc)
    have onAfter : ∀ c ∈ after, ∃ key, c.OnKey table columns base key := fun c hc =>
      tidy.onKey c (List.mem_append_right _ (List.mem_cons_of_mem _ hc))
    have apartBefore : ∀ c ∈ before, ¬ c.SharesKey existing := fun c hc sharing =>
      others c (List.mem_append_left _ hc) sharing.symm
    have apartAfter : ∀ c ∈ after, ¬ c.SharesKey incoming := fun c hc sharing =>
      others c (List.mem_append_right _ hc) (shares.trans sharing.symm)
    have uncovered (insertion : existing.kind = .insert) :
        ∀ row ∈ executeAll before base, row.covers own = false :=
      executeAll_uncovered ho onBefore apartBefore (ho.inserted insertion).1
    constructor
    · refine tidy.replace fun changed hm => ?_
      obtain rfl := Option.mem_def.1 hm
      obtain ⟨now, hn, eq⟩ := ho.takeIn hc same notInsert takes
      exact ⟨hn.sharesKey ho eq, now, hn⟩
    · calc executeAll (before ++ taken.toList ++ after) base
          = executeAll after (executeAll taken.toList (executeAll before base)) := by
            rw [executeAll_append, executeAll_append]
        _ = executeAll after (incoming.execute (existing.execute (executeAll before base))) := by
            rw [Change.execute_takeIn ho hc same notInsert uncovered takes]
        _ = incoming.execute (executeAll after (existing.execute (executeAll before base))) :=
            (executeAll_comm hc notInsert onAfter apartAfter _).symm
        _ = incoming.execute (executeAll (before ++ existing :: after) base) := by
            rw [executeAll_append]
            rfl

end Tidy

/-! ## Edits -/

namespace Edit

variable {table : Table} {columns : List String} {base : List Row} {keyColumns : KeyColumns}

/-- The edit names one row of a table by its key columns and leaves the key as it is: an insertion has
values for all of them, with a key that no row of the table has; an update or deletion has a key over
exactly these columns, and an update gives them no other values. -/
def NamesRow (keyColumns : KeyColumns) (columns : List String) (base : List Row) : Edit → Prop
  | .insert _ values _ =>
    ∃ key, values.select? columns = some key ∧ ∀ row ∈ base, row.covers key = false
  | .update t given old new =>
    ∃ key, ((Edit.update t given old new).withRegisteredKey keyColumns).usableKey? = some key ∧
      key.SpansOver columns ∧ new.KeepsKey key
  | .delete t given old =>
    ∃ key, ((Edit.delete t given old).withRegisteredKey keyColumns).usableKey? = some key ∧
      key.SpansOver columns

/-- An insertion that is given with a key is given with the key that its values have. -/
def GivesOwnKey (columns : List String) : Edit → Prop
  | .insert _ values given =>
    ∀ k ∈ given, k.isEmpty = false → ∀ key ∈ values.select? columns, (k == key) = true
  | _ => True

@[simp] theorem withRegisteredKey_newValues (e : Edit) :
    (e.withRegisteredKey keyColumns).newValues = e.newValues := by
  rcases e.withRegisteredKey_cases keyColumns with h | ⟨key, h⟩
  · rw [h]
  · rw [h]
    cases e <;> rfl

@[simp] theorem toChange_newValues (e : Edit) (id : ChangeId) (stamp : Stamp) :
    (e.toChange id stamp).newValues.getD Dict.empty = e.newValues := by
  cases e <;> rfl

theorem execute_toChange (e : Edit) (id : ChangeId) (stamp : Stamp) (rows : List Row) :
    ((e.withRegisteredKey keyColumns).toChange id stamp).execute rows =
      e.execute keyColumns rows := by
  simp only [Change.execute, execute, toChange_kind, withRegisteredKey_kind, toChange_usableKey?,
    toChange_newValues, withRegisteredKey_newValues]

/-- The change that is staged for an insertion has a key that is equal to the one of its values. -/
theorem usableKey?_insert {t : Table} {values key : Row} {given : Option Row}
    (registered : keyColumns.get? t = some columns) (selected : values.select? columns = some key)
    (own : (Edit.insert t values given).GivesOwnKey columns) :
    ∃ k, ((Edit.insert t values given).withRegisteredKey keyColumns).usableKey? = some k ∧
      (k == key) = true := by
  cases usable : (Edit.insert t values given).usableKey? with
  | some k =>
    refine ⟨k, by simp only [withRegisteredKey, usable], ?_⟩
    obtain ⟨hk, nonempty⟩ := Option.filter_eq_some_iff.1 usable
    exact own k hk (by simpa using nonempty) key selected
  | none =>
    have nonempty := Row.isEmpty_of_select? selected
    refine ⟨key, ?_, BEq.rfl⟩
    simp only [withRegisteredKey, usable, table, registered, knownValues, selected]
    simp [usableKey?, withKey, primaryKey, nonempty]

/-- The change that is staged for an edit which names its row points at that row by its key. -/
theorem NamesRow.onKey {e : Edit} (registered : keyColumns.get? e.table = some columns)
    (h : e.NamesRow keyColumns columns base) (own : e.GivesOwnKey columns) (id : ChangeId)
    (stamp : Stamp) :
    ∃ key, ((e.withRegisteredKey keyColumns).toChange id stamp).OnKey e.table columns base key := by
  cases e with
  | insert t values given =>
    obtain ⟨key, selected, free⟩ := h
    obtain ⟨k, usable, same⟩ := usableKey?_insert (t := t) registered selected own
    have covered : Row.covers values k = true :=
      (Row.covers_congr same).trans (Row.covers_of_select? selected)
    refine ⟨k, .intro (by simp) (by simpa using usable) ?_ ?_ fun _ => ⟨fun row hrow => ?_, ?_⟩⟩
    · exact Row.spansOver_of_beq (BEq.symm same) (Row.spansOver_of_select? selected)
    · simpa using Row.keepsKey_of_covers covered
    · exact (Row.covers_congr same).trans (free row hrow)
    · simpa using covered
  | update t given old new =>
    obtain ⟨key, usable, spans, keeps⟩ := h
    exact ⟨key, .intro (by simp) (by simpa using usable) spans (by simpa using keeps) (by simp)⟩
  | delete t given old =>
    obtain ⟨key, usable, spans⟩ := h
    exact ⟨key, .intro (by simp) (by simpa using usable) spans
      (fun column v w hv _ => by simp at hv) (by simp)⟩

end Edit

/-! ## Recording -/

namespace Ledger

variable {l : Ledger} {s : SessionId} {table : Table} {columns : List String} {base : List Row}

/-- The changes of a table stay as they are when the ledger refuses an edit, and are staged by
themselves when it accepts one. -/
theorem record_changesOn (l : Ledger) (s : SessionId) (edit : Edit) (id : ChangeId)
    (now : UInt64) :
    let step := l.record s edit id now
    step.ledger.keyColumns = l.keyColumns ∧
    ((∃ e, step.answer = .error e ∧
      ∀ table, step.ledger.changesOn s table = l.changesOn s table) ∨
    ∃ outcome stamp, step.answer = .ok outcome ∧
      (∀ table, edit.table ≠ table → step.ledger.changesOn s table = l.changesOn s table) ∧
      stage (l.changesOn s edit.table)
          ((edit.withRegisteredKey l.keyColumns).toChange id stamp) =
        .ok (step.ledger.changesOn s edit.table, outcome)) := by
  intro step
  rcases l.record_cases s edit id now with idle | ⟨stamp, changes, outcome, -, -, -, -, staged, eq⟩
  · obtain ⟨e, refused⟩ := idle.answer
    refine ⟨idle.ledger.keyColumns, .inl ⟨e, refused, fun table => ?_⟩⟩
    simp only [changesOn, Ledger.changes, step, idle.ledger.session s]
  · have after (table : Table) :
        step.ledger.changesOn s table = changes.filter fun c => c.table = table := by
      simp [step, eq, changesOn, Ledger.changes, session_written]
    refine ⟨by simp [step, eq, (l.load_loaded s).keyColumns], .inr ⟨outcome, stamp, ?_, ?_,
      ?_⟩⟩
    · simp [step, eq]
    · intro table other
      rw [after]
      exact stage_other_table staged (by simpa using other)
    · have one := stage_filter_table (l.changes s)
        ((edit.withRegisteredKey l.keyColumns).toChange id stamp)
      rw [staged] at one
      rw [after]
      simpa [changesOn, Except.map] using one

/-- Recording edits on rows by their keys does to the rows of a table, through the changes that the
session holds in the end, what the accepted edits do one after another. -/
theorem executeAll_recordAll (registered : l.keyColumns.get? table = some columns)
    (tidy : Tidy table columns base (l.changesOn s table))
    (edits : List (Edit × ChangeId × UInt64))
    (names : ∀ e ∈ edits, e.1.table = table → e.1.NamesRow l.keyColumns columns base)
    (own : ∀ e ∈ edits, e.1.table = table → e.1.GivesOwnKey columns) :
    executeAll ((l.recordAll s edits).1.changesOn s table) base =
      ((l.recordAll s edits).2.filter fun e => e.table = table).foldl
        (fun rows e => e.execute l.keyColumns rows) (executeAll (l.changesOn s table) base) := by
  induction edits generalizing l with
  | nil => rfl
  | cons first rest ih =>
    obtain ⟨edit, id, now⟩ := first
    obtain ⟨keyColumns, step⟩ := record_changesOn l s edit id now
    have namesRest : ∀ e ∈ rest, e.1.table = table →
        e.1.NamesRow (l.record s edit id now).ledger.keyColumns columns base := fun e he ht =>
      keyColumns ▸ names e (List.mem_cons_of_mem _ he) ht
    have ownRest : ∀ e ∈ rest, e.1.table = table → e.1.GivesOwnKey columns := fun e he ht =>
      own e (List.mem_cons_of_mem _ he) ht
    have registered' := keyColumns ▸ registered
    rcases step with ⟨e, refused, same⟩ | ⟨outcome, stamp, accepted, others, staged⟩
    · have rest := ih registered' (same table ▸ tidy) namesRest ownRest
      simpa only [recordAll, refused, same table, keyColumns] using rest
    · by_cases ht : edit.table = table
      · subst ht
        have ownFirst := own _ List.mem_cons_self rfl
        obtain ⟨key, onKey⟩ :=
          (names _ List.mem_cons_self rfl).onKey registered ownFirst id stamp
        obtain ⟨tidy', effect⟩ := execute_stage tidy onKey staged
        have rest := ih registered' tidy' namesRest ownRest
        rw [effect, Edit.execute_toChange, keyColumns] at rest
        simpa [recordAll, accepted] using rest
      · have rest := ih registered' (others table ht ▸ tidy) namesRest ownRest
        simpa [recordAll, accepted, ht, others table ht, keyColumns] using rest

/-- Merging never changes the net effect: where edits name the rows of a table by its key columns,
what a session holds for the table in the end does to the rows what the accepted edits do one after
another. -/
theorem recordAll_net_effect (registered : l.keyColumns.get? table = some columns)
    (unstaged : l.changesOn s table = []) (edits : List (Edit × ChangeId × UInt64))
    (names : ∀ e ∈ edits, e.1.table = table → e.1.NamesRow l.keyColumns columns base)
    (own : ∀ e ∈ edits, e.1.table = table → e.1.GivesOwnKey columns) :
    executeAll ((l.recordAll s edits).1.changesOn s table) base =
      ((l.recordAll s edits).2.filter fun e => e.table = table).foldl
        (fun rows e => e.execute l.keyColumns rows) base := by
  have tidy : Tidy table columns base (l.changesOn s table) := by
    rw [unstaged]
    exact ⟨by simp, List.Pairwise.nil⟩
  simpa [unstaged, executeAll] using executeAll_recordAll registered tidy edits names own

end Ledger

namespace Sample

theorem named_keepsKey (name : String) (n : Int64) : (named name).KeepsKey (key n) := by
  intro column v w hv hw
  simp only [named, key, Dict.ofList, List.foldl_cons, List.foldl_nil, Dict.get?_insert] at hv hw
  by_cases hc : column = "name" <;> simp_all

theorem key_spansOver (n : Int64) : (key n).SpansOver ["id"] :=
  Row.spansOver_of_select? (rfl : (key n).select? ["id"] = some (key n))

/-- An item is put in and renamed, another one is renamed and taken out, and the first one is taken
out and put in again. -/
def errands : List (Edit × ChangeId × UInt64) :=
  [(.insert items (item 2 "b") none, id 1, 0),
    (.update items (some (key 2)) Dict.empty (named "c"), id 2, 0),
    (.update items (some (key 1)) Dict.empty (named "d"), id 3, 0),
    (.delete items (some (key 1)) Dict.empty, id 4, 0),
    (.delete items (some (key 2)) Dict.empty, id 5, 0),
    (.insert items (item 2 "e") (some (key 2)), id 6, 0)]

theorem recordAll_net_effect_errands :
    ledger.keyColumns.get? items = some ["id"] ∧ ledger.changesOn desk items = [] ∧
      executeAll ((ledger.recordAll desk errands).1.changesOn desk items) [item 1 "a"] =
        ((ledger.recordAll desk errands).2.filter fun e => e.table = items).foldl
          (fun rows e => e.execute ledger.keyColumns rows) [item 1 "a"] ∧
      executeAll ((ledger.recordAll desk errands).1.changesOn desk items) [item 1 "a"] =
        [item 2 "e"] := by
  have known : ledger.keyColumns.get? items = some ["id"] := rfl
  refine ⟨known, rfl, Ledger.recordAll_net_effect known rfl errands ?_ ?_, rfl⟩
  · intro e he _
    simp only [errands, List.mem_cons, List.not_mem_nil, or_false] at he
    rcases he with rfl | rfl | rfl | rfl | rfl | rfl
    · exact ⟨key 2, rfl, by simp; rfl⟩
    · exact ⟨key 2, rfl, key_spansOver 2, named_keepsKey "c" 2⟩
    · exact ⟨key 1, rfl, key_spansOver 1, named_keepsKey "d" 1⟩
    · exact ⟨key 1, rfl, key_spansOver 1⟩
    · exact ⟨key 2, rfl, key_spansOver 2⟩
    · exact ⟨key 2, rfl, by simp; rfl⟩
  · intro e he _
    simp only [errands, List.mem_cons, List.not_mem_nil, or_false] at he
    rcases he with rfl | rfl | rfl | rfl | rfl | rfl
    · exact fun k hk => by cases hk
    · trivial
    · trivial
    · trivial
    · trivial
    · rintro k ⟨⟩ _ own ⟨⟩
      rfl

/-- An item with one key is put in under another one, and then renamed under that. -/
def mislabelled : List (Edit × ChangeId × UInt64) :=
  [(.insert items (item 1 "a") (some (key 2)), id 1, 0),
    (.update items (some (key 2)) Dict.empty (named "b"), id 2, 0)]

/-- The insertion takes in the update of the row with the key that it was given, while in the table
there is no such row and the update would change nothing. -/
theorem recordAll_mislabelled :
    ledger.keyColumns.get? items = some ["id"] ∧ ledger.changesOn desk items = [] ∧
      (∀ e ∈ mislabelled, e.1.NamesRow ledger.keyColumns ["id"] []) ∧
      executeAll ((ledger.recordAll desk mislabelled).1.changesOn desk items) [] =
        [item 1 "b"] ∧
      ((ledger.recordAll desk mislabelled).2.filter fun e => e.table = items).foldl
        (fun rows e => e.execute ledger.keyColumns rows) [] = [item 1 "a"] ∧
      item 1 "a" ≠ item 1 "b" := by
  refine ⟨rfl, rfl, ?_, rfl, rfl, fun same => ?_⟩
  · intro e he
    simp only [mislabelled, List.mem_cons, List.not_mem_nil, or_false] at he
    rcases he with rfl | rfl
    · exact ⟨key 1, rfl, by simp⟩
    · exact ⟨key 2, rfl, key_spansOver 2, named_keepsKey "b" 2⟩
  · have name : some (Cell.text "a") = some (Cell.text "b") :=
      congrArg (Dict.get? · "name") same
    simp at name

end Sample

end DraftLedger
