import DraftLedger.Proofs.FollowUp
import DraftLedger.Proofs.Placement
import DraftLedger.Proofs.Registrations

/-!
# Edits before and after a key is known

An edit without a key points at its row by all that it knows of it, and by a key once the columns of the
key are registered.  A change that the row points at is pointed at by the key as well if its own key is
over the same columns, or if it has none and its new values leave the key as it is.  Otherwise the edit
that would have gone into the change becomes a second one.

* `Landed` : the answer to an edit that goes into a change or is refused because of one.
* `Ledger.record_landed_iff` : an edit lands exactly when its address points at a change.
* `Change.Follows` : a change that the row points at is pointed at by the key.
* `History.split_iff` : when an edit that would land becomes a change of its own.
-/

set_option autoImplicit false

namespace DraftLedger

/-! ## Landing -/

/-- The answer to an edit that a change of the table takes in, or refuses since its row is to be
deleted. -/
inductive Landed (table : Table) (changes : List Change) : Except Ledger.Failure Outcome → Prop
  | merged {c : Change} (mem : c ∈ changes) (onTable : c.table = table) :
      Landed table changes (.ok (.merged c.id))
  | replaced {c : Change} (mem : c ∈ changes) (onTable : c.table = table) :
      Landed table changes (.ok (.replaced c.id))
  | cancelled {c : Change} (mem : c ∈ changes) (onTable : c.table = table) :
      Landed table changes (.ok (.cancelled c.id))
  | conflict {c : Change} (mem : c ∈ changes) (onTable : c.table = table)
      (deletion : c.kind = .delete) :
      Landed table changes (.error (.refused (.conflict table .stagedForDeletion)))

section Staging

variable {changes : List Change} {incoming : Change} {address : Address}
  (notInsert : incoming.kind ≠ .insert) (found : incoming.address? = some address)
include notInsert found

theorem stage_landed_or_appended :
    Landed incoming.table changes (((stage changes incoming).map Prod.snd).mapError .refused) ∨
      ((stage changes incoming).map Prod.snd).mapError Ledger.Failure.refused =
        .ok (.appended incoming.id) := by
  cases staged : stage changes incoming with
  | error refusal =>
    cases stage_refused staged with
    | unaddressed none => cases none.symm.trans found
    | keyTaken insertion => exact absurd insertion notInsert
    | deleted _ target here deletion =>
      obtain ⟨before, existing, after, rfl, rfl, -, receives⟩ :=
        (firstTarget?_eq_some found).1 target
      rw [List.getElem?_append_right (Nat.le_refl _), Nat.sub_self, List.getElem?_cons_zero] at here
      cases here
      exact .inl (.conflict (List.mem_append_right _ List.mem_cons_self) receives.1 deletion)
  | ok r =>
    obtain ⟨result, outcome⟩ := r
    obtain ⟨address', -, ⟨-, rfl, -⟩ | ⟨-, before, existing, after, taken, rfl, -, receives, takes, -⟩⟩ :=
      stage_cases staged
    · exact .inr rfl
    have mem : existing ∈ before ++ existing :: after := List.mem_append_right _ List.mem_cons_self
    rcases Change.takeIn_cases takes notInsert with
      ⟨-, -, -, rfl⟩ | ⟨-, -, -, rfl⟩ | ⟨-, -, -, rfl⟩ | ⟨-, -, -, rfl⟩
    · exact .inl (.cancelled mem receives.1)
    · exact .inl (.merged mem receives.1)
    · exact .inl (.replaced mem receives.1)
    · exact .inl (.merged mem receives.1)

/-- An update or deletion goes into a change, or is refused because of one, exactly when its address
points at a change of its table. -/
theorem stage_landed_iff :
    Landed incoming.table changes (((stage changes incoming).map Prod.snd).mapError .refused) ↔
      ∃ c ∈ changes, c.Receives incoming.table address := by
  have appended : ((stage changes incoming).map Prod.snd).mapError Ledger.Failure.refused =
        .ok (.appended incoming.id) ↔
      ∀ other ∈ changes, ¬ other.Receives incoming.table address := by
    rw [mapError_eq_ok_iff]
    exact stage_appended_iff notInsert found
  constructor
  · intro landed
    by_contra free
    rw [appended.2 fun c mem receives => free ⟨c, mem, receives⟩] at landed
    cases landed
  · rintro ⟨c, mem, receives⟩
    exact (stage_landed_or_appended notInsert found).resolve_right fun own =>
      appended.1 own c mem receives

end Staging

/-! ## Recording -/

theorem Edit.invalid_of_check {edit : Edit} {refusal : Error} (checked : edit.check = .error refusal) :
    ∃ cause, refusal = .invalidChange cause := by
  unfold check at checked
  split at checked
  · split at checked <;> cases checked
    exact ⟨_, rfl⟩
  · split at checked <;> cases checked
    exact ⟨_, rfl⟩
  · cases checked

namespace Ledger

variable {l : Ledger} {s : SessionId} {edit : Edit} {id : ChangeId} {now : UInt64} {table : Table}
  {row : Row}

theorem accepts_of_landed {changes : List Change}
    (landed : Landed table changes (l.record s edit id now).answer) :
    edit.check = .ok () ∧ (l.session s).frozen = false ∧ (l.session s).active = true ∧
      ∃ stamp, (l.load s).clock.next? now = some stamp := by
  have loaded := l.load_loaded s
  cases checked : edit.check with
  | error refusal =>
    obtain ⟨cause, rfl⟩ := Edit.invalid_of_check checked
    simp only [record, checked, refused] at landed
    cases landed
  | ok _ =>
    simp only [record, checked, loaded.session s] at landed
    split at landed
    · cases landed
    next free =>
    split at landed
    · next active =>
      cases reading : (l.load s).clock.next? now with
      | none =>
        simp only [Clock.tick?, reading, Option.map_none, refused] at landed
        cases landed
      | some stamp => exact ⟨rfl, by simpa using free, active, stamp, rfl⟩
    · cases landed

/-- An edit without a key, of a row of which something is known, lands exactly when its address points
at a change of its table; else it becomes a change of its own. -/
theorem record_landed_iff (l : Ledger) (id : ChangeId) {stamp : Stamp}
    (checked : edit.check = .ok ()) (free : (l.session s).frozen = false)
    (active : (l.session s).active = true) (reading : (l.load s).clock.next? now = some stamp)
    (made : edit.MadeOf table row) (nonempty : row.isEmpty = false) :
    (Landed table (l.changes s) (l.record s edit id now).answer ↔
      ∃ c ∈ l.changes s, c.Receives table (row.addressBy (l.keyColumns.get? table))) ∧
    (Landed table (l.changes s) (l.record s edit id now).answer ∨
      (l.record s edit id now).answer = .ok (.appended id)) := by
  let incoming := (edit.withRegisteredKey l.keyColumns).toChange id stamp
  have notInsert : incoming.kind ≠ .insert := by simpa [incoming] using made.notInsert
  have onTable : incoming.table = table := by simp [incoming, made.table]
  have found : incoming.address? = some (row.addressBy (l.keyColumns.get? table)) :=
    made.address? nonempty l.keyColumns
  rw [(record_staged checked free active reading rfl).1, ← onTable]
  exact ⟨stage_landed_iff notInsert (onTable ▸ found), stage_landed_or_appended notInsert found⟩

end Ledger

/-! ## The row and its key -/

namespace Change

variable {c : Change} {row key own : Row} {columns : List String}

/-- The key of the change, or without one the key of its row, is over the columns and is not changed:
its own key is over just these columns, or it has none and its new values leave the key as it is. -/
def Follows (c : Change) (columns : List String) (key : Row) : Prop :=
  match c.usableKey? with
  | some own => own.SpansOver columns
  | none => (c.newValues.getD Dict.empty).KeepsKey key

/-- A change with a key that a row points at is pointed at by the key of the row over the columns of its
key, and by no other. -/
theorem follows_iff_of_key (usable : c.usableKey? = some own) (selected : row.select? columns = some key)
    (reached : c.isTargetedBy (.fullRow row) = true) :
    c.isTargetedBy (.key key) = true ↔ own.SpansOver columns := by
  obtain ⟨now, current, covered⟩ := (isTargetedBy_row_iff usable).1 reached
  have spans := Row.spansOver_of_select? selected
  have columns' (column : String) : (now.get? column).isSome = (own.get? column).isSome := by
    simp [get?_currentKey? usable current]
  have same : now.SpansOver columns ↔ own.SpansOver columns := by
    simp only [Row.SpansOver, columns']
  rw [isTargetedBy_key_iff usable]
  simp only [current, Option.some.injEq, exists_eq_left']
  constructor
  · rintro (equal | equal)
    · exact Row.spansOver_of_beq equal spans
    · exact same.1 (Row.spansOver_of_beq equal spans)
  · intro agrees
    exact .inr (Row.beq_of_covers spans (same.2 agrees) (Row.covers_of_select? selected) covered)

theorem currentImage_eq_overlay {known : Row} (shaped : c.Shaped) (image : c.knownImage = some known) :
    c.currentImage = some (known.overlay (c.newValues.getD Dict.empty)) := by
  by_cases insertion : c.kind = .insert
  · simp only [knownImage, insertion] at image
    have same : known.overlay known = known := Dict.ext_get? fun column => by
      rw [Dict.get?_overlay, Option.or_self]
    simp only [currentImage, insertion, image, Option.getD_some, same]
  · exact currentImage_of_known shaped insertion image

/-- A change without a key that a row points at is pointed at by a key of the row exactly when its new
values leave the key as it is. -/
theorem follows_iff_of_image (wf : c.WellFormed) (usable : c.usableKey? = none)
    (selected : row.select? columns = some key) (reached : c.isTargetedBy (.fullRow row) = true) :
    c.isTargetedBy (.key key) = true ↔ (c.newValues.getD Dict.empty).KeepsKey key := by
  obtain ⟨known, -, before, nonempty, -⟩ := wf.image usable
  have current := currentImage_eq_overlay wf.shaped before
  have nonempty' : key.isEmpty = false := Row.isEmpty_of_select? selected
  have covered : row.covers key = true := Row.covers_of_select? selected
  rw [isTargetedBy_key_iff_covers usable before nonempty nonempty']
  rw [isTargetedBy_row_iff_same usable before nonempty] at reached
  simp only [current, Option.some.injEq, exists_eq_left'] at reached ⊢
  constructor
  · intro covers column v w hv hw
    refine Row.keepsKey_of_covers covers column v w ?_ hw
    rw [Dict.get?_overlay, hv, Option.some_or]
  · intro keeps
    rcases reached with same | ⟨-, same⟩
    · exact Row.covers_overlay_self keeps (Row.covers_of_same same covered)
    · exact Row.covers_of_same same covered

theorem isTargetedBy_key_iff_follows (wf : c.WellFormed) (selected : row.select? columns = some key)
    (reached : c.isTargetedBy (.fullRow row) = true) :
    c.isTargetedBy (.key key) = true ↔ c.Follows columns key := by
  unfold Follows
  cases usable : c.usableKey? with
  | some own => exact follows_iff_of_key usable selected reached
  | none => exact follows_iff_of_image wf usable selected reached

end Change

namespace Ledger

variable {l : Ledger} {s : SessionId} {edit : Edit} {id : ChangeId} {now : UInt64} {table : Table}
  {row key : Row} {columns : List String}

theorem clock_load_setKeyColumns (l : Ledger) (s : SessionId) (table : Table)
    (columns : List String) : ((l.setKeyColumns table columns).load s).clock = (l.load s).clock := by
  have sessions : (l.setKeyColumns table columns).sessions = l.sessions := rfl
  unfold load
  rw [sessions]
  cases l.sessions.get? s <;> rfl

theorem addressBy_setKeyColumns (l : Ledger) (table : Table)
    (selected : row.select? columns = some key) :
    row.addressBy ((l.setKeyColumns table columns).keyColumns.get? table) = .key key := by
  have nonempty : columns ≠ [] := (Row.select?_eq_some selected).1
  simp [get?_setKeyColumns, nonempty, Row.addressBy, selected]

/-- An edit that lands while no key columns are registered lands once they are exactly when its key
points at a change, be it one that the row points at and that follows the key, or another one. -/
theorem record_learned (wf : ∀ c ∈ l.changes s, c.WellFormed) (made : edit.MadeOf table row)
    (selected : row.select? columns = some key)
    (landed : Landed table (l.changes s) ((l.setKeyColumns table []).record s edit id now).answer) :
    (Landed table (l.changes s) ((l.setKeyColumns table columns).record s edit id now).answer ↔
      ∃ c ∈ l.changes s, c.table = table ∧
        if c.isTargetedBy (.fullRow row) = true then c.Follows columns key
        else c.isTargetedBy (.key key) = true) ∧
    (Landed table (l.changes s) ((l.setKeyColumns table columns).record s edit id now).answer ∨
      ((l.setKeyColumns table columns).record s edit id now).answer = .ok (.appended id)) := by
  obtain ⟨checked, free, active, stamp, reading⟩ := accepts_of_landed landed
  rw [clock_load_setKeyColumns, ← l.clock_load_setKeyColumns s table columns] at reading
  have nonempty : row.isEmpty = false :=
    Row.isEmpty_of_covers (Row.covers_of_select? selected) (Row.isEmpty_of_select? selected)
  have learned := record_landed_iff (l.setKeyColumns table columns) id checked free active reading
    made nonempty
  refine ⟨learned.1.trans ?_, learned.2⟩
  rw [l.addressBy_setKeyColumns table selected]
  refine exists_congr fun c => and_congr_right fun mem => and_congr_right fun _ => ?_
  split
  · next reached => exact Change.isTargetedBy_key_iff_follows (wf c mem) selected reached
  · exact Iff.rfl

end Ledger

namespace History

variable {e : Engine} {h : History} {settings : Settings} {listing : Listing} {database : Database}
  {s : SessionId} {table : Table} {row key : Row} {columns : List String} {edit : Edit} {id : ChangeId}
  {now : UInt64}

/-- An update or deletion without a key that goes into a change, or is refused because of one, while no
columns are registered for its table: once columns are registered that it knows, it does so again or
becomes a second change.  It does so again exactly when it points at a change by its key.  Of the changes
that its row points at these are the ones with a key over the same columns, and those without a key whose
new values leave the key as it is. -/
theorem landed_learned_iff
    (opened : Engine.opened settings (Store.empty listing) database = .ok e)
    (reaches : Reaches Fresh (start e []) h) (made : edit.MadeOf table row)
    (selected : row.select? columns = some key)
    (landed : Landed table (h.engine.ledger.changes s)
      ((h.engine.ledger.setKeyColumns table []).record s edit id now).answer) :
    let l := h.engine.ledger
    let learned := ((l.setKeyColumns table columns).record s edit id now).answer
    (Landed table (l.changes s) learned ↔
      ∃ c ∈ l.changes s, c.table = table ∧
        if c.isTargetedBy (.fullRow row) = true then c.Follows columns key
        else c.isTargetedBy (.key key) = true) ∧
    (Landed table (l.changes s) learned ∨ learned = .ok (.appended id)) := by
  obtain ⟨all, -, -⟩ := reaches.wellFormed opened
  exact Ledger.record_learned (all.changes s) made selected landed

end History

namespace Sample

open Engine History

/-- A row of which all is known is taken out after it was renamed: with its key registered or not, the
renaming becomes the deletion. -/
theorem landed_learned_iff_renamed :
    (((relabelled (item 1 "a")).engine.ledger.setKeyColumns items []).record desk
        (.delete items none (item 1 "a")) (id 2) 0).answer = .ok (.replaced (id 1)) ∧
      Landed items ((relabelled (item 1 "a")).engine.ledger.changes desk)
        (((relabelled (item 1 "a")).engine.ledger.setKeyColumns items ["id"]).record desk
          (.delete items none (item 1 "a")) (id 2) 0).answer := by
  let c : Change := (Edit.update items none (item 1 "a") (named "b")).toChange (id 1) ⟨0, 1⟩
  have mem : c ∈ (relabelled (item 1 "a")).engine.ledger.changes desk := List.mem_singleton_self c
  have landed : Landed items ((relabelled (item 1 "a")).engine.ledger.changes desk)
      (((relabelled (item 1 "a")).engine.ledger.setKeyColumns items []).record desk
        (.delete items none (item 1 "a")) (id 2) 0).answer := Landed.replaced mem rfl
  have made : (Edit.delete items none (item 1 "a")).MadeOf items (item 1 "a") := ⟨nofun, rfl, rfl, rfl⟩
  have selected : (item 1 "a").select? ["id"] = some (key 1) := rfl
  have reached : c.isTargetedBy (.fullRow (item 1 "a")) = true := rfl
  refine ⟨rfl, (landed_learned_iff engine_opened (relabelled_reached (item 1 "a")) made selected
    landed).1.2 ⟨c, mem, rfl, ?_⟩⟩
  rw [if_pos reached]
  intro column v w hv hw
  change (if column = "name" then some (Cell.text "b") else none) = some v at hv
  change (if column = "id" then some (Cell.integer 1) else none) = some w at hw
  split at hv
  · next same =>
    rw [same, if_neg (by decide)] at hw
    cases hw
  · cases hv

/-- A change by a key over other columns takes the edit in by its row alone. -/
example :
    let l := (engine.ledger.activate desk).ledger
    let l := (l.record desk (.update items (some (named "a")) Dict.empty (key 2)) (id 1) 0).ledger
    ((l.setKeyColumns items []).record desk (.delete items none (item 1 "a")) (id 2) 0).answer =
        .ok (.replaced (id 1)) ∧
      ((l.setKeyColumns items ["id"]).record desk (.delete items none (item 1 "a")) (id 2) 0).answer =
        .ok (.appended (id 2)) :=
  ⟨rfl, rfl⟩

/-- A row without a key, of which all is known, gets another identifier. -/
def renumbered : History :=
  ((start engine []).step (.activate desk)).step
    (.record desk (.update items none (item 1 "a") (key 2)) (id 1) 0)

/-- An edit of the row as it was goes into the change, but is a second one once the key is known. -/
theorem renumbered_split :
    Reaches Fresh (start engine []) renumbered ∧
      ((renumbered.engine.ledger.setKeyColumns items []).record desk
        (.update items none (item 1 "a") (named "b")) (id 2) 0).answer = .ok (.merged (id 1)) ∧
      ((renumbered.engine.ledger.setKeyColumns items ["id"]).record desk
        (.update items none (item 1 "a") (named "b")) (id 2) 0).answer = .ok (.appended (id 2)) :=
  ⟨.step _ (.step _ .refl trivial) ⟨List.not_mem_nil, rfl⟩, rfl, rfl⟩

end Sample

end DraftLedger
