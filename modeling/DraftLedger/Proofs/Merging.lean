import DraftLedger.Ledger.Mutation
import DraftLedger.Proofs.Rows

/-!
# What staging does to a list of changes

* `Change.Receives` : the change is one that would take in an edit with the address.
* `stage_cases` : a new change joins the end, or the first change that receives it takes it in.
* `Change.takeIn_cases` : the four ways in which a change takes in another one.
* `Change.SharesKey`, `Apart` : two changes with equal keys, and lists without such two.
* `Change.isTargetedBy_key_iff` and the three lemmas after it : when a key or a row points at a
  change with or without a key.
* `stage_filter_table`, `stage_other_table` : the changes of one table go by themselves.
-/

set_option autoImplicit false

namespace DraftLedger

namespace Change

/-! ## Fields after a merge -/

@[simp] theorem withNewValues_id (c : Change) (r : Option Row) : (c.withNewValues r).id = c.id := by
  cases r <;> rfl

@[simp] theorem withNewValues_kind (c : Change) (r : Option Row) :
    (c.withNewValues r).kind = c.kind := by
  cases r <;> rfl

@[simp] theorem withNewValues_table (c : Change) (r : Option Row) :
    (c.withNewValues r).table = c.table := by
  cases r <;> rfl

@[simp] theorem withNewValues_primaryKey (c : Change) (r : Option Row) :
    (c.withNewValues r).primaryKey = c.primaryKey := by
  cases r <;> rfl

@[simp] theorem withNewValues_newValues (c : Change) (r : Option Row) :
    (c.withNewValues r).newValues.getD Dict.empty =
      (c.newValues.getD Dict.empty).overlay (r.getD Dict.empty) := by
  cases r <;> rfl

@[simp] theorem withNewValues_oldValues (c : Change) (r : Option Row) :
    (c.withNewValues r).oldValues = c.oldValues := by
  cases r <;> rfl

@[simp] theorem withNewValues_timestamp (c : Change) (r : Option Row) :
    (c.withNewValues r).timestamp = c.timestamp := by
  cases r <;> rfl

@[simp] theorem withOldValues_id (c : Change) (r : Option Row) : (c.withOldValues r).id = c.id := by
  cases r <;> rfl

@[simp] theorem withOldValues_kind (c : Change) (r : Option Row) :
    (c.withOldValues r).kind = c.kind := by
  cases r <;> rfl

@[simp] theorem withOldValues_table (c : Change) (r : Option Row) :
    (c.withOldValues r).table = c.table := by
  cases r <;> rfl

@[simp] theorem withOldValues_primaryKey (c : Change) (r : Option Row) :
    (c.withOldValues r).primaryKey = c.primaryKey := by
  cases r <;> rfl

@[simp] theorem withOldValues_newValues (c : Change) (r : Option Row) :
    (c.withOldValues r).newValues = c.newValues := by
  cases r <;> rfl

@[simp] theorem withOldValues_timestamp (c : Change) (r : Option Row) :
    (c.withOldValues r).timestamp = c.timestamp := by
  cases r <;> rfl

/-! ## The ways to take in a change -/

/-- The insertion after an update of its row. -/
def insertAfter (existing incoming : Change) : Change :=
  let values := existing.withNewValues incoming.newValues
  { values with primaryKey := values.currentKey?, updatedAt := incoming.updatedAt }

/-- The update after a further update of its row. -/
def updateAfter (existing incoming : Change) : Change :=
  { (existing.withOldValues incoming.oldValues).withNewValues incoming.newValues with
      updatedAt := incoming.updatedAt }

/-- The deletion that an update becomes. -/
def deleteAfter (existing incoming : Change) : Change :=
  { existing.withOldValues incoming.oldValues with
      kind := .delete
      newValues := none
      updatedAt := incoming.updatedAt }

section After

variable (existing incoming : Change)

@[simp] theorem insertAfter_id : (existing.insertAfter incoming).id = existing.id := by
  simp [insertAfter]

@[simp] theorem insertAfter_kind : (existing.insertAfter incoming).kind = existing.kind := by
  simp [insertAfter]

@[simp] theorem insertAfter_table : (existing.insertAfter incoming).table = existing.table := by
  simp [insertAfter]

@[simp] theorem insertAfter_oldValues :
    (existing.insertAfter incoming).oldValues = existing.oldValues := by
  simp [insertAfter]

@[simp] theorem insertAfter_newValues :
    (existing.insertAfter incoming).newValues.getD Dict.empty =
      (existing.newValues.getD Dict.empty).overlay (incoming.newValues.getD Dict.empty) := by
  simp [insertAfter]

@[simp] theorem updateAfter_id : (existing.updateAfter incoming).id = existing.id := by
  simp [updateAfter]

@[simp] theorem updateAfter_kind : (existing.updateAfter incoming).kind = existing.kind := by
  simp [updateAfter]

@[simp] theorem updateAfter_table : (existing.updateAfter incoming).table = existing.table := by
  simp [updateAfter]

@[simp] theorem updateAfter_primaryKey :
    (existing.updateAfter incoming).primaryKey = existing.primaryKey := by
  simp [updateAfter]

@[simp] theorem updateAfter_oldValues :
    (existing.updateAfter incoming).oldValues =
      (existing.withOldValues incoming.oldValues).oldValues := by
  simp [updateAfter]

@[simp] theorem updateAfter_newValues :
    (existing.updateAfter incoming).newValues.getD Dict.empty =
      (existing.newValues.getD Dict.empty).overlay (incoming.newValues.getD Dict.empty) := by
  simp [updateAfter]

@[simp] theorem deleteAfter_id : (existing.deleteAfter incoming).id = existing.id := by
  simp [deleteAfter]

@[simp] theorem deleteAfter_kind : (existing.deleteAfter incoming).kind = .delete := rfl

@[simp] theorem deleteAfter_table : (existing.deleteAfter incoming).table = existing.table := by
  simp [deleteAfter]

@[simp] theorem deleteAfter_primaryKey :
    (existing.deleteAfter incoming).primaryKey = existing.primaryKey := by
  simp [deleteAfter]

@[simp] theorem deleteAfter_oldValues :
    (existing.deleteAfter incoming).oldValues =
      (existing.withOldValues incoming.oldValues).oldValues := rfl

@[simp] theorem deleteAfter_newValues : (existing.deleteAfter incoming).newValues = none := rfl

end After

/-- A change takes in an update or deletion of its row in one of four ways. -/
theorem takeIn_cases {existing incoming : Change} {taken : Option Change} {outcome : Outcome}
    (h : existing.takeIn incoming = .ok (taken, outcome)) (hk : incoming.kind ≠ .insert) :
    (existing.kind = .insert ∧ incoming.kind = .delete ∧ taken = none ∧
      outcome = .cancelled existing.id) ∨
    (existing.kind = .insert ∧ incoming.kind = .update ∧
      taken = some (existing.insertAfter incoming) ∧ outcome = .merged existing.id) ∨
    (existing.kind = .update ∧ incoming.kind = .delete ∧
      taken = some (existing.deleteAfter incoming) ∧ outcome = .replaced existing.id) ∨
    (existing.kind = .update ∧ incoming.kind = .update ∧
      taken = some (existing.updateAfter incoming) ∧ outcome = .merged existing.id) := by
  unfold takeIn at h
  cases he : existing.kind <;> cases hi : incoming.kind <;> simp only [he, hi] at h
  case insert.insert => exact absurd hi hk
  case insert.update => cases h; exact .inr (.inl ⟨rfl, rfl, rfl, rfl⟩)
  case insert.delete => cases h; exact .inl ⟨rfl, rfl, rfl, rfl⟩
  case update.insert => exact absurd hi hk
  case update.update => cases h; exact .inr (.inr (.inr ⟨rfl, rfl, rfl, rfl⟩))
  case update.delete => cases h; exact .inr (.inr (.inl ⟨rfl, rfl, rfl, rfl⟩))
  all_goals cases h

theorem takeIn_identity {existing incoming changed : Change} {outcome : Outcome}
    (h : existing.takeIn incoming = .ok (some changed, outcome)) (hk : incoming.kind ≠ .insert) :
    changed.id = existing.id ∧ changed.table = existing.table := by
  rcases takeIn_cases h hk with ⟨-, -, e, -⟩ | ⟨-, -, e, -⟩ | ⟨-, -, e, -⟩ | ⟨-, -, e, -⟩
  · cases e
  · cases e; exact ⟨insertAfter_id .., insertAfter_table ..⟩
  · cases e; exact ⟨deleteAfter_id .., deleteAfter_table ..⟩
  · cases e; exact ⟨updateAfter_id .., updateAfter_table ..⟩

theorem takeIn_updatedAt {existing incoming changed : Change} {outcome : Outcome}
    (h : existing.takeIn incoming = .ok (some changed, outcome)) (hk : incoming.kind ≠ .insert) :
    changed.updatedAt = incoming.updatedAt := by
  rcases takeIn_cases h hk with ⟨-, -, e, -⟩ | ⟨-, -, e, -⟩ | ⟨-, -, e, -⟩ | ⟨-, -, e, -⟩
  · cases e
  · cases e; rfl
  · cases e; rfl
  · cases e; rfl

/-! ## Keys -/

theorem usableKey?_eq_some {c : Change} {key : Row} :
    c.usableKey? = some key ↔ c.primaryKey = some key ∧ key.isEmpty = false := by
  simp [usableKey?, Option.filter_eq_some_iff]

/-- Both changes are of one table and have keys, which are equal. -/
def SharesKey (a b : Change) : Prop :=
  a.table = b.table ∧
    ∃ key key', a.primaryKey = some key ∧ b.primaryKey = some key' ∧ (key == key') = true

theorem SharesKey.symm {a b : Change} (h : a.SharesKey b) : b.SharesKey a := by
  obtain ⟨table, key, key', ha, hb, same⟩ := h
  exact ⟨table.symm, key', key, hb, ha, BEq.symm same⟩

theorem SharesKey.trans {a b c : Change} (h : a.SharesKey b) (h' : b.SharesKey c) :
    a.SharesKey c := by
  obtain ⟨table, x, y, ha, hb, same⟩ := h
  obtain ⟨table', y', z, hb', hc, same'⟩ := h'
  obtain rfl : y = y' := Option.some.inj (hb.symm.trans hb')
  exact ⟨table.trans table', x, z, ha, hc, BEq.trans same same'⟩

theorem currentKey?_isSome {c : Change} {own : Row} (h : c.usableKey? = some own) :
    ∃ now, c.currentKey? = some now ∧ now.isEmpty = own.isEmpty := by
  unfold currentKey?
  rw [h]
  cases c.newValues with
  | none => exact ⟨own, rfl, rfl⟩
  | some new => exact ⟨_, rfl, Dict.isEmpty_mapValues _ _⟩

/-- The key that the row will have has the new values in the columns of the key. -/
theorem get?_currentKey? {c : Change} {own now : Row} (h : c.usableKey? = some own)
    (current : c.currentKey? = some now) (column : String) :
    now.get? column =
      (own.get? column).map fun w => ((c.newValues.getD Dict.empty).get? column).getD w := by
  unfold currentKey? at current
  rw [h] at current
  cases values : c.newValues with
  | none =>
    simp only [values, Option.some.injEq] at current
    simp [current]
  | some new =>
    simp only [values, Option.some.injEq] at current
    rw [← current, Dict.get?_mapValues]
    rfl

theorem currentKey?_of_keepsKey {c : Change} {own : Row} (h : c.usableKey? = some own)
    (keeps : (c.newValues.getD Dict.empty).KeepsKey own) :
    ∃ now, c.currentKey? = some now ∧ (now == own) = true := by
  obtain ⟨now, current, -⟩ := currentKey?_isSome h
  refine ⟨now, current, Dict.beq_iff.2 fun column => ?_⟩
  rw [get?_currentKey? h current]
  cases hw : own.get? column with
  | none => rfl
  | some w =>
    cases hv : (c.newValues.getD Dict.empty).get? column with
    | none => simp
    | some v => simpa using keeps column v w hv hw

/-! ## Addresses that point at a change -/

/-- The address of the row after the change. -/
def laterAddress? (c : Change) : Option Address :=
  match c.usableKey? with
  | some _ => c.currentKey?.map .key
  | none => (c.currentImage.filter fun image => !image.isEmpty).map .fullRow

section Addresses

variable {c : Change} {own key row known : Row} {a first : Address}

theorem contains_reachableAddresses (h : c.address? = some first) :
    c.reachableAddresses.contains a = true ↔
      (a == first) = true ∨ ∃ later, c.laterAddress? = some later ∧ (a == later) = true := by
  have way : (if first.isFullRow then
        (c.currentImage.filter fun image => !image.isEmpty).map Address.fullRow
      else c.currentKey?.map Address.key) = c.laterAddress? := by
    unfold address? at h
    unfold laterAddress?
    cases usable : c.usableKey? with
    | some own =>
      rw [usable] at h
      cases h
      rfl
    | none =>
      simp only [usable, Option.map_eq_some_iff] at h
      obtain ⟨image, -, rfl⟩ := h
      rfl
  simp only [reachableAddresses, h, way]
  cases c.laterAddress? with
  | none => simp
  | some later =>
    by_cases same : (first == later) = true
    · simp only [if_pos same, List.contains_cons, List.contains_nil, Bool.or_false]
      simp only [Option.some.injEq, exists_eq_left']
      exact ⟨.inl, fun h => h.elim (fun h => h) fun h => BEq.trans h (BEq.symm same)⟩
    · simp [if_neg same]

section Keyed

variable (h : c.usableKey? = some own)
include h

theorem address?_of_key : c.address? = some (.key own) := by simp only [address?, h]

/-- A key points at a change with a key when it is its key or the key that its row will have. -/
theorem isTargetedBy_key_iff :
    c.isTargetedBy (.key key) = true ↔
      (key == own) = true ∨ ∃ now, c.currentKey? = some now ∧ (key == now) = true := by
  have keyed : c.isFullRowAddressed = false := by simp [isFullRowAddressed, h]
  rw [isTargetedBy, keyed, Bool.false_and, Bool.or_false,
    contains_reachableAddresses (address?_of_key h)]
  simp only [laterAddress?, h, Option.map_eq_some_iff]
  refine or_congr_right ⟨?_, ?_⟩
  · rintro ⟨_, ⟨now, found, rfl⟩, same⟩
    exact ⟨now, found, same⟩
  · rintro ⟨now, found, same⟩
    exact ⟨_, ⟨now, found, rfl⟩, same⟩

theorem isTargetedBy_key_iff_of_keepsKey (keeps : (c.newValues.getD Dict.empty).KeepsKey own) :
    c.isTargetedBy (.key key) = true ↔ (key == own) = true := by
  rw [isTargetedBy_key_iff h]
  obtain ⟨now, hnow, same⟩ := currentKey?_of_keepsKey h keeps
  refine ⟨?_, .inl⟩
  rintro (equal | ⟨now', hnow', equal⟩)
  · exact equal
  · obtain rfl := Option.some.inj (hnow.symm.trans hnow')
    exact BEq.trans equal same

/-- A row points at a change with a key when it has the key that the row of the change will have. -/
theorem isTargetedBy_row_iff :
    c.isTargetedBy (.fullRow row) = true ↔
      ∃ now, c.currentKey? = some now ∧ row.covers now = true := by
  have keyed : c.isFullRowAddressed = false := by simp [isFullRowAddressed, h]
  obtain ⟨now, hnow, size⟩ := currentKey?_isSome h
  have nonempty : now.isEmpty = false := size.trans (usableKey?_eq_some.1 h).2
  have none : c.reachableAddresses.contains (.fullRow row) = false := by
    refine Bool.eq_false_iff.2 fun reached => ?_
    rw [contains_reachableAddresses (address?_of_key h)] at reached
    simp only [laterAddress?, h, hnow] at reached
    rcases reached with same | ⟨_, ⟨⟩, same⟩ <;> cases same
  simp [isTargetedBy, none, keyed, hnow, Address.matchesRow, Address.columns, nonempty]

end Keyed

section Keyless

variable (h : c.usableKey? = none) (image : c.knownImage = some known)
  (nonempty : known.isEmpty = false)
include h image nonempty

theorem address?_of_image : c.address? = some (.fullRow known) := by
  simp [address?, h, image, Option.filter, nonempty]

/-- A row points at a change without a key when it is the row before the change or after it. -/
theorem isTargetedBy_row_iff_same :
    c.isTargetedBy (.fullRow row) = true ↔ (row == known) = true ∨
      ∃ now, c.currentImage = some now ∧ now.isEmpty = false ∧ (row == now) = true := by
  have keyless : c.isFullRowAddressed = true := by simp [isFullRowAddressed, h]
  rw [isTargetedBy, keyless, Bool.not_true, Bool.false_and, Bool.or_false,
    contains_reachableAddresses (address?_of_image h image nonempty)]
  simp only [laterAddress?, h, Option.map_eq_some_iff, Option.filter_eq_some_iff]
  refine or_congr_right ⟨?_, ?_⟩
  · rintro ⟨_, ⟨now, ⟨found, nonempty⟩, rfl⟩, same⟩
    exact ⟨now, found, by simpa using nonempty, same⟩
  · rintro ⟨now, found, nonempty, same⟩
    exact ⟨_, ⟨now, ⟨found, by simpa using nonempty⟩, rfl⟩, same⟩

/-- A key points at a change without one when the row of the change will have that key. -/
theorem isTargetedBy_key_iff_covers (nonempty' : key.isEmpty = false) :
    c.isTargetedBy (.key key) = true ↔
      ∃ now, c.currentImage = some now ∧ now.covers key = true := by
  have keyless : c.isFullRowAddressed = true := by simp [isFullRowAddressed, h]
  have none : c.reachableAddresses.contains (.key key) = false := by
    refine Bool.eq_false_iff.2 fun reached => ?_
    rw [contains_reachableAddresses (address?_of_image h image nonempty)] at reached
    simp only [laterAddress?, h, Option.map_eq_some_iff] at reached
    rcases reached with same | ⟨_, ⟨_, -, rfl⟩, same⟩ <;> cases same
  cases now : c.currentImage <;>
    simp [isTargetedBy, none, keyless, now, Address.matchesRow, Address.columns, nonempty']

end Keyless

end Addresses

theorem isTargetedBy_key_self {c : Change} {own key : Row} (h : c.usableKey? = some own)
    (same : (key == own) = true) : c.isTargetedBy (.key key) = true :=
  (isTargetedBy_key_iff h).2 (.inl same)

/-- The change would take in an edit of this table with this address. -/
def Receives (c : Change) (table : Table) (address : Address) : Prop :=
  c.table = table ∧ c.isTargetedBy address = true

end Change

/-! ## Edits as changes -/

namespace Edit

@[simp] theorem update_kind (t : Table) (key : Option Row) (old new : Row) :
    (update t key old new).kind = .update := rfl

@[simp] theorem delete_kind (t : Table) (key : Option Row) (old : Row) :
    (delete t key old).kind = .delete := rfl

variable {keyColumns : KeyColumns}

theorem withRegisteredKey_cases (e : Edit) (keyColumns : KeyColumns) :
    e.withRegisteredKey keyColumns = e ∨
      ∃ key, e.withRegisteredKey keyColumns = e.withKey key := by
  unfold withRegisteredKey
  split
  · exact .inr ⟨_, rfl⟩
  · exact .inl rfl

@[simp] theorem withRegisteredKey_kind (e : Edit) :
    (e.withRegisteredKey keyColumns).kind = e.kind := by
  rcases e.withRegisteredKey_cases keyColumns with h | ⟨key, h⟩
  · rw [h]
  · rw [h]
    cases e <;> rfl

@[simp] theorem withRegisteredKey_table (e : Edit) :
    (e.withRegisteredKey keyColumns).table = e.table := by
  rcases e.withRegisteredKey_cases keyColumns with h | ⟨key, h⟩
  · rw [h]
  · rw [h]
    cases e <;> rfl

variable (e : Edit) (id : ChangeId) (stamp : Stamp)

@[simp] theorem toChange_kind : (e.toChange id stamp).kind = e.kind := rfl

@[simp] theorem toChange_table : (e.toChange id stamp).table = e.table := rfl

@[simp] theorem toChange_primaryKey : (e.toChange id stamp).primaryKey = e.usableKey? := rfl

@[simp] theorem toChange_usableKey? : (e.toChange id stamp).usableKey? = e.usableKey? := by
  simp [Change.usableKey?, usableKey?]

end Edit

/-! ## Changes of different rows -/

theorem others_subset {before after : List Change} {c : Change} :
    before ++ after ⊆ before ++ c :: after :=
  ((List.sublist_cons_self c after).append_left before).subset

/-- No two changes of one table have equal keys. -/
def Apart (changes : List Change) : Prop := changes.Pairwise fun a b => ¬ a.SharesKey b

theorem Apart.sublist {changes kept : List Change} (h : Apart changes)
    (sub : kept.Sublist changes) : Apart kept :=
  List.Pairwise.sublist sub h

theorem apart_middle {before after : List Change} {c : Change} :
    Apart (before ++ c :: after) ↔
      (∀ d ∈ before ++ after, ¬ c.SharesKey d) ∧ Apart (before ++ after) :=
  (List.pairwise_middle fun h sharing => h sharing.symm).trans List.pairwise_cons

/-! ## Staging one change -/

theorem stageAt_cases {address : Address} {incoming : Change} {changes result : List Change}
    {outcome : Outcome} (h : stageAt address incoming changes = .ok (result, outcome)) :
    (result = changes ++ [incoming] ∧ outcome = .appended incoming.id ∧
      ∀ c ∈ changes, ¬ c.Receives incoming.table address) ∨
    ∃ before existing after taken, changes = before ++ existing :: after ∧
      (∀ c ∈ before, ¬ c.Receives incoming.table address) ∧
      existing.Receives incoming.table address ∧
      existing.takeIn incoming = .ok (taken, outcome) ∧
      result = before ++ taken.toList ++ after := by
  induction changes generalizing result with
  | nil =>
    cases h
    exact .inl ⟨rfl, rfl, by simp⟩
  | cons existing rest ih =>
    unfold stageAt at h
    split at h
    · next receives =>
      have receives : existing.Receives incoming.table address := by
        simpa [Change.Receives] using receives
      refine .inr ⟨[], existing, rest, ?_⟩
      split at h
      · next changed _ taken => cases h; exact ⟨some changed, rfl, by simp, receives, taken, rfl⟩
      · next taken => cases h; exact ⟨none, rfl, by simp, receives, taken, rfl⟩
      · cases h
    · next passes =>
      have passes : ¬ existing.Receives incoming.table address := by
        simpa [Change.Receives] using passes
      split at h
      · next inner _ staged =>
        cases h
        rcases ih staged with ⟨rfl, ho, free⟩ | ⟨before, found, after, taken, rfl, free, more⟩
        · refine .inl ⟨rfl, ho, ?_⟩
          rintro c (_ | ⟨_, hc⟩)
          · exact passes
          · exact free c hc
        · obtain ⟨receives, taken', rfl⟩ := more
          refine .inr ⟨existing :: before, found, after, taken, rfl, ?_, receives, taken', rfl⟩
          rintro c (_ | ⟨_, hc⟩)
          · exact passes
          · exact free c hc
      · cases h

/-- A new change joins the end, or the first change that receives it takes it in. A change joins
the end when no change receives it, or as an insertion without a key. -/
theorem stage_cases {incoming : Change} {changes result : List Change} {outcome : Outcome}
    (h : stage changes incoming = .ok (result, outcome)) :
    ∃ address, incoming.address? = some address ∧
      ((result = changes ++ [incoming] ∧ outcome = .appended incoming.id ∧
        ((incoming.kind = .insert ∧ address.isFullRow = true) ∨
          ∀ c ∈ changes, ¬ c.Receives incoming.table address)) ∨
      (incoming.kind ≠ .insert ∧
        ∃ before existing after taken, changes = before ++ existing :: after ∧
          (∀ c ∈ before, ¬ c.Receives incoming.table address) ∧
          existing.Receives incoming.table address ∧
          existing.takeIn incoming = .ok (taken, outcome) ∧
          result = before ++ taken.toList ++ after)) := by
  unfold stage at h
  split at h
  · cases h
  next address found =>
  refine ⟨address, found, ?_⟩
  split at h
  · next insertion =>
    split at h
    · cases h
    · next free =>
      cases h
      refine .inl ⟨rfl, rfl, ?_⟩
      by_cases full : address.isFullRow = true
      · exact .inl ⟨insertion, full⟩
      · refine .inr fun c hc receives => free ?_
        simp only [Bool.and_eq_true, Bool.not_eq_true', List.any_eq_true]
        exact ⟨by simpa using full, c, hc, by simpa [Change.Receives] using receives⟩
  · next noInsertion =>
    rcases stageAt_cases h with ⟨rfl, rfl, free⟩ | taken
    · exact .inl ⟨rfl, rfl, .inr free⟩
    · exact .inr ⟨noInsertion, taken⟩

theorem stage_of_ne_insert {address : Address} {incoming : Change} {changes : List Change}
    (found : incoming.address? = some address) (notInsert : incoming.kind ≠ .insert) :
    stage changes incoming = stageAt address incoming changes := by
  simp only [stage, found, if_neg notInsert]

theorem stageAt_of_receives {address : Address} {incoming existing : Change}
    {before after : List Change} (passed : ∀ c ∈ before, ¬ c.Receives incoming.table address)
    (receives : existing.Receives incoming.table address) :
    stageAt address incoming (before ++ existing :: after) =
      (existing.takeIn incoming).map fun r => (before ++ r.1.toList ++ after, r.2) := by
  induction before with
  | nil =>
    have here : (existing.table = incoming.table && existing.isTargetedBy address) = true := by
      simpa [Change.Receives] using receives
    simp only [List.nil_append, stageAt, here, if_true]
    rcases existing.takeIn incoming with refusal | ⟨_ | changed, outcome⟩ <;> rfl
  | cons c rest ih =>
    have passes : ¬ (c.table = incoming.table && c.isTargetedBy address) = true := by
      simpa [Change.Receives] using passed c List.mem_cons_self
    simp only [List.cons_append, stageAt, if_neg passes,
      ih fun d hd => passed d (List.mem_cons_of_mem _ hd)]
    rcases existing.takeIn incoming with refusal | taken <;> rfl

theorem stageAt_of_not_receives {address : Address} {incoming : Change} {changes : List Change}
    (passed : ∀ c ∈ changes, ¬ c.Receives incoming.table address) :
    stageAt address incoming changes = .ok (changes ++ [incoming], .appended incoming.id) := by
  induction changes with
  | nil => rfl
  | cons c rest ih =>
    have passes : ¬ (c.table = incoming.table && c.isTargetedBy address) = true := by
      simpa [Change.Receives] using passed c List.mem_cons_self
    simp only [stageAt, if_neg passes, ih fun d hd => passed d (List.mem_cons_of_mem _ hd)]
    rfl

/-! ## One table by itself -/

section Table

variable {address : Address} {incoming : Change}

theorem stageAt_filter_table (notInsert : incoming.kind ≠ .insert) (changes : List Change) :
    stageAt address incoming (changes.filter fun c => c.table = incoming.table) =
      (stageAt address incoming changes).map fun r =>
        (r.1.filter fun c => c.table = incoming.table, r.2) := by
  induction changes with
  | nil => simp [stageAt, Except.map]
  | cons existing rest ih =>
    by_cases same : existing.table = incoming.table
    · rw [List.filter_cons_of_pos (by simpa using same)]
      by_cases targeted : existing.isTargetedBy address = true
      · simp only [stageAt, same, targeted, decide_true, Bool.and_self, if_true]
        cases taken : existing.takeIn incoming with
        | error e => rfl
        | ok step =>
          obtain ⟨_ | changed, outcome⟩ := step
          · rfl
          · have kept := (Change.takeIn_identity taken notInsert).2
            simp [Except.map, kept.trans same]
      · simp only [stageAt, same, targeted, decide_true, Bool.and_false, Bool.false_eq_true,
          if_false, ih]
        cases stageAt address incoming rest with
        | error e => rfl
        | ok step => simp [Except.map, same]
    · rw [List.filter_cons_of_neg (by simpa using same), ih]
      simp only [stageAt, same, decide_false, Bool.false_and, Bool.false_eq_true, if_false]
      cases stageAt address incoming rest with
      | error e => rfl
      | ok step => simp [Except.map, same]

/-- The changes of a table are staged as if there were no others. -/
theorem stage_filter_table (changes : List Change) (incoming : Change) :
    stage (changes.filter fun c => c.table = incoming.table) incoming =
      (stage changes incoming).map fun r =>
        (r.1.filter fun c => c.table = incoming.table, r.2) := by
  unfold stage
  cases incoming.address? with
  | none => rfl
  | some address =>
    by_cases insertion : incoming.kind = .insert
    · have others : (changes.filter fun c => c.table = incoming.table).any
            (fun c => c.table = incoming.table && c.isTargetedBy address) =
          changes.any fun c => c.table = incoming.table && c.isTargetedBy address := by
        rw [List.any_filter]
        congr 1
        funext c
        simp
      simp only [insertion, if_true, others]
      split
      · rfl
      · simp [Except.map]
    · simp only [insertion, if_false]
      exact stageAt_filter_table insertion changes

/-- The changes of other tables stay as they are. -/
theorem stage_other_table {changes result : List Change} {outcome : Outcome} {table : Table}
    (h : stage changes incoming = .ok (result, outcome)) (other : incoming.table ≠ table) :
    (result.filter fun c => c.table = table) = changes.filter fun c => c.table = table := by
  obtain ⟨address, -, ⟨rfl, -⟩ | ⟨notInsert, before, existing, after, taken, rfl, -, receives,
    takes, rfl⟩⟩ := stage_cases h
  · simp [other]
  · have existingOther : existing.table ≠ table := receives.1 ▸ other
    cases taken with
    | none => simp [existingOther]
    | some changed =>
      have kept := (Change.takeIn_identity takes notInsert).2
      simp [existingOther, kept]

end Table

end DraftLedger
