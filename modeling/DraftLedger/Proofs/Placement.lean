import DraftLedger.Proofs.LedgerView
import DraftLedger.Proofs.Sample

/-!
# Where staging puts a change

Staging touches one position of the list at most, and its outcome tells which.

* `firstTarget?` : the position of the first change that a new one points at.
* `Change.Continues` : what a change keeps when it takes in another one.
* `StagingRefused` : when staging is refused, and why.
* `stage_touches_one` : the list after staging, outcome by outcome.
-/

set_option autoImplicit false

namespace DraftLedger

/-- The position of the first change of the same table that the address of a new one points at. -/
def firstTarget? (changes : List Change) (incoming : Change) : Option Nat :=
  incoming.address?.bind fun address =>
    changes.findIdx? fun c => c.table = incoming.table && c.isTargetedBy address

/-- The change is still the one that it was, with the time of the one that it took in. -/
structure Change.Continues (changed existing incoming : Change) : Prop where
  id : changed.id = existing.id
  table : changed.table = existing.table
  timestamp : changed.timestamp = existing.timestamp
  updatedAt : changed.updatedAt = incoming.updatedAt

/-- A change is refused that points at no row, that inserts a row with a key which a change has, or
whose row is to be deleted. -/
inductive StagingRefused (changes : List Change) (incoming : Change) : Error → Prop
  | unaddressed (h : incoming.address? = none) :
      StagingRefused changes incoming (.addressing incoming.table (.edit incoming.kind))
  | keyTaken {key : Row} {i : Nat} (insertion : incoming.kind = .insert)
      (keyed : incoming.address? = some (.key key)) (target : firstTarget? changes incoming = some i) :
      StagingRefused changes incoming (.conflict incoming.table .alreadyStaged)
  | deleted {i : Nat} {existing : Change} (notInsert : incoming.kind ≠ .insert)
      (target : firstTarget? changes incoming = some i) (found : changes[i]? = some existing)
      (deletion : existing.kind = .delete) :
      StagingRefused changes incoming (.conflict incoming.table .stagedForDeletion)

section

variable {existing incoming changed : Change} {before after changes result : List Change}
  {address : Address} {outcome : Outcome} {i : Nat} {refusal : Error}

theorem Change.takeIn_continues (h : existing.takeIn incoming = .ok (some changed, outcome))
    (notInsert : incoming.kind ≠ .insert) : changed.Continues existing incoming := by
  rcases takeIn_cases h notInsert with ⟨-, -, e, -⟩ | ⟨-, -, e, -⟩ | ⟨-, -, e, -⟩ | ⟨-, -, e, -⟩
  · cases e
  all_goals
    cases e
    constructor <;> simp [insertAfter, deleteAfter, updateAfter]

theorem Change.takeIn_refused (h : existing.takeIn incoming = .error refusal) :
    existing.kind = .delete ∧ refusal = .conflict incoming.table .stagedForDeletion := by
  unfold takeIn at h
  cases kind : existing.kind <;> cases kind' : incoming.kind <;> simp only [kind, kind'] at h
  case delete.insert | delete.update | delete.delete => exact ⟨rfl, (Except.error.inj h).symm⟩
  all_goals cases h

theorem receives_iff (c : Change) :
    (c.table = incoming.table && c.isTargetedBy address) = true ↔
      c.Receives incoming.table address := by
  simp [Change.Receives]

theorem firstTarget?_eq_some (found : incoming.address? = some address) :
    firstTarget? changes incoming = some i ↔ ∃ before existing after,
      changes = before ++ existing :: after ∧ before.length = i ∧
        (∀ c ∈ before, ¬ c.Receives incoming.table address) ∧
        existing.Receives incoming.table address := by
  rw [firstTarget?, found, Option.bind_some]
  constructor
  · intro h
    obtain ⟨inside, hits, misses⟩ := List.findIdx?_eq_some_iff_getElem.1 h
    refine ⟨changes.take i, changes[i], changes.drop (i + 1), ?_, ?_, ?_, (receives_iff _).1 hits⟩
    · rw [← List.drop_eq_getElem_cons inside, List.take_append_drop]
    · rw [List.length_take]
      omega
    · intro c hc receives
      obtain ⟨j, hj, rfl⟩ := List.mem_take_iff_getElem.1 hc
      exact misses j (by omega) ((receives_iff _).2 receives)
  · rintro ⟨before, existing, after, rfl, rfl, passed, receives⟩
    have misses : ∀ c ∈ before, (c.table = incoming.table && c.isTargetedBy address) = false := by
      intro c hc
      exact Bool.eq_false_iff.2 fun hits => passed c hc ((receives_iff c).1 hits)
    rw [List.findIdx?_append, List.findIdx?_eq_none_iff.2 misses, List.findIdx?_cons,
      if_pos ((receives_iff existing).2 receives)]
    simp

theorem firstTarget?_eq_none (found : incoming.address? = some address) :
    firstTarget? changes incoming = none ↔ ∀ c ∈ changes, ¬ c.Receives incoming.table address := by
  rw [firstTarget?, found, Option.bind_some, List.findIdx?_eq_none_iff]
  simp only [← Bool.not_eq_true, receives_iff]

theorem stage_at (staged : stage changes incoming = .ok (result, outcome)) :
    (result = changes ++ [incoming] ∧ outcome = .appended incoming.id) ∨
    ∃ i existing taken, firstTarget? changes incoming = some i ∧ changes[i]? = some existing ∧
      existing.takeIn incoming = .ok (taken, outcome) ∧ incoming.kind ≠ .insert ∧
      result = taken.elim (changes.eraseIdx i) (changes.set i) := by
  obtain ⟨address, found, ⟨rfl, rfl, -⟩ | ⟨notInsert, before, existing, after, taken, rfl, passed,
    receives, takes, rfl⟩⟩ := stage_cases staged
  · exact .inl ⟨rfl, rfl⟩
  · have target : firstTarget? (before ++ existing :: after) incoming = some before.length :=
      (firstTarget?_eq_some found).2 ⟨before, existing, after, rfl, rfl, passed, receives⟩
    refine .inr ⟨before.length, existing, taken, target, by simp, takes, notInsert, ?_⟩
    cases taken with
    | none => simp [List.eraseIdx_append_of_length_le]
    | some changed => simp

theorem stage_refused (refused : stage changes incoming = .error refusal) :
    StagingRefused changes incoming refusal := by
  cases found : incoming.address? with
  | none =>
    simp only [stage, found] at refused
    cases refused
    exact .unaddressed found
  | some address =>
    by_cases insertion : incoming.kind = .insert
    · simp only [stage, found, if_pos insertion] at refused
      split at refused
      · next taken =>
        cases refused
        obtain ⟨keyed, c, hc, hits⟩ : address.isFullRow = false ∧ ∃ c ∈ changes,
            (c.table = incoming.table && c.isTargetedBy address) = true := by
          simpa only [Bool.and_eq_true, Bool.not_eq_true', List.any_eq_true] using taken
        cases target : firstTarget? changes incoming with
        | none =>
          exact absurd ((receives_iff c).1 hits) ((firstTarget?_eq_none found).1 target c hc)
        | some i =>
          cases address with
          | fullRow row => cases keyed
          | key key => exact .keyTaken insertion found target
      · cases refused
    · rw [stage_of_ne_insert found insertion] at refused
      cases target : firstTarget? changes incoming with
      | none =>
        rw [stageAt_of_not_receives ((firstTarget?_eq_none found).1 target)] at refused
        cases refused
      | some i =>
        obtain ⟨before, existing, after, rfl, rfl, passed, receives⟩ :=
          (firstTarget?_eq_some found).1 target
        rw [stageAt_of_receives passed receives] at refused
        cases takes : existing.takeIn incoming with
        | ok r =>
          rw [takes] at refused
          cases refused
        | error e =>
          rw [takes] at refused
          cases refused
          obtain ⟨deletion, rfl⟩ := Change.takeIn_refused takes
          exact .deleted insertion target (by simp) deletion

theorem stage_congr {others : List Change}
    (same : (others.filter fun c => c.table = incoming.table) =
      changes.filter fun c => c.table = incoming.table) :
    (stage others incoming).map (fun r => (r.1.filter fun c => c.table = incoming.table, r.2)) =
      (stage changes incoming).map fun r =>
        (r.1.filter fun c => c.table = incoming.table, r.2) := by
  rw [← stage_filter_table others, ← stage_filter_table changes, same]

theorem stage_filter_other (staged : stage changes incoming = .ok (result, outcome)) :
    (result.filter fun c => c.table ≠ incoming.table) =
      changes.filter fun c => c.table ≠ incoming.table := by
  obtain ⟨address, -, ⟨rfl, -⟩ | ⟨notInsert, before, existing, after, taken, rfl, -, receives,
    takes, rfl⟩⟩ := stage_cases staged
  · simp
  · cases taken with
    | none => simp [receives.1]
    | some changed =>
      have table := (Change.takeIn_continues takes notInsert).table
      simp [receives.1, table]

theorem Ledger.record_refused_changes {l : Ledger} {s : SessionId} {edit : Edit} {id : ChangeId}
    {now : UInt64} {stamp : Stamp} (reading : (l.load s).clock.next? now = some stamp)
    (refused : stage (l.changes s) ((edit.withRegisteredKey l.keyColumns).toChange id stamp) =
      .error refusal) :
    (∃ e, (l.record s edit id now).answer = .error e) ∧
      (l.record s edit id now).ledger.changes s = l.changes s := by
  rcases l.record_cases s edit id now with idle | ⟨_, _, _, -, -, -, reading', staged, -⟩
  · exact ⟨idle.answer, idle.ledger.changes s⟩
  · obtain rfl := Option.some.inj (reading.symm.trans reading')
    rw [refused] at staged
    cases staged

end

/-- Staging touches one change at most, and says which. If it is refused, for one of three reasons, a
session that holds the list holds it afterwards. Else the new change joins the end; or the first change
that it points at takes it in and stays the same change in its place; or that one is an insertion, which
goes away together with it. The changes of other tables have no part in it. -/
theorem stage_touches_one (changes : List Change) (incoming : Change) :
    (match stage changes incoming with
      | .error e => StagingRefused changes incoming e ∧
          ∀ (l : Ledger) (s : SessionId) (edit : Edit) (id : ChangeId) (now : UInt64)
            (stamp : Stamp), l.changes s = changes → (l.load s).clock.next? now = some stamp →
            (edit.withRegisteredKey l.keyColumns).toChange id stamp = incoming →
            (∃ e', (l.record s edit id now).answer = .error e') ∧
              (l.record s edit id now).ledger.changes s = changes
      | .ok (result, .appended id) => result = changes ++ [incoming] ∧ id = incoming.id
      | .ok (result, .merged id) => ∃ i existing changed,
          firstTarget? changes incoming = some i ∧ changes[i]? = some existing ∧
            existing.id = id ∧ result = changes.set i changed ∧
            changed.Continues existing incoming ∧ changed.kind = existing.kind
      | .ok (result, .replaced id) => ∃ i existing changed,
          firstTarget? changes incoming = some i ∧ changes[i]? = some existing ∧
            existing.id = id ∧ result = changes.set i changed ∧
            changed.Continues existing incoming ∧ existing.kind = .update ∧
            changed.kind = .delete
      | .ok (result, .cancelled id) => ∃ i existing,
          firstTarget? changes incoming = some i ∧ changes[i]? = some existing ∧
            existing.id = id ∧ result = changes.eraseIdx i ∧ existing.kind = .insert) ∧
    (∀ result outcome, stage changes incoming = .ok (result, outcome) →
      (result.filter fun c => c.table ≠ incoming.table) =
        changes.filter fun c => c.table ≠ incoming.table) ∧
    ∀ others : List Change,
      (others.filter fun c => c.table = incoming.table) =
        (changes.filter fun c => c.table = incoming.table) →
      (stage others incoming).map (fun r => (r.1.filter fun c => c.table = incoming.table, r.2)) =
        (stage changes incoming).map fun r =>
          (r.1.filter fun c => c.table = incoming.table, r.2) := by
  refine ⟨?_, fun result outcome => stage_filter_other, fun others => stage_congr⟩
  cases staged : stage changes incoming with
  | error refusal =>
    refine ⟨stage_refused staged, ?_⟩
    rintro l s edit id now stamp rfl reading rfl
    exact Ledger.record_refused_changes reading staged
  | ok r =>
    obtain ⟨result, outcome⟩ := r
    rcases stage_at staged with
      ⟨rfl, rfl⟩ | ⟨i, existing, taken, target, found, takes, notInsert, rfl⟩
    · exact ⟨rfl, rfl⟩
    · rcases Change.takeIn_cases takes notInsert with ⟨kind, -, rfl, rfl⟩ | ⟨kind, -, rfl, rfl⟩ |
        ⟨kind, -, rfl, rfl⟩ | ⟨kind, -, rfl, rfl⟩
      · exact ⟨i, existing, target, found, rfl, rfl, kind⟩
      · exact ⟨i, existing, _, target, found, rfl, rfl, Change.takeIn_continues takes notInsert,
          Change.insertAfter_kind ..⟩
      · exact ⟨i, existing, _, target, found, rfl, rfl, Change.takeIn_continues takes notInsert,
          kind, Change.deleteAfter_kind ..⟩
      · exact ⟨i, existing, _, target, found, rfl, rfl, Change.takeIn_continues takes notInsert,
          Change.updateAfter_kind ..⟩

namespace Sample

/-- A row without a key column is put in, another one by its key, and a row is renamed by its key. -/
def backlog : List Change :=
  [(Edit.insert items (named "a") none).toChange (id 1) ⟨5, 0⟩,
    (Edit.insert items (item 2 "b") (some (key 2))).toChange (id 2) ⟨5, 1⟩,
    (Edit.update items (some (key 3)) (item 3 "c") (named "d")).toChange (id 3) ⟨5, 2⟩]

/-- A key points at the second insertion, which goes away with the deletion of its row; the others keep
their order. -/
theorem stage_touches_one_deletion :
    ∃ i existing, firstTarget? backlog
        ((Edit.delete items (some (key 2)) Dict.empty).toChange (id 4) ⟨5, 3⟩) = some i ∧
      backlog[i]? = some existing ∧ existing.id = id 2 ∧
      (stage backlog ((Edit.delete items (some (key 2)) Dict.empty).toChange (id 4) ⟨5, 3⟩)).map
        Prod.fst = .ok (backlog.eraseIdx i) := by
  have touched := (stage_touches_one backlog
    ((Edit.delete items (some (key 2)) Dict.empty).toChange (id 4) ⟨5, 3⟩)).1
  have cancels : ∃ result, stage backlog
      ((Edit.delete items (some (key 2)) Dict.empty).toChange (id 4) ⟨5, 3⟩) =
        .ok (result, .cancelled (id 2)) := ⟨_, rfl⟩
  obtain ⟨result, cancelled⟩ := cancels
  rw [cancelled] at touched
  obtain ⟨i, existing, target, found, same, rfl, -⟩ := touched
  exact ⟨i, existing, target, found, same, by rw [cancelled]; rfl⟩

end Sample

end DraftLedger
