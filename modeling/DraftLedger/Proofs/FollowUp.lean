import DraftLedger.Proofs.Clocks
import DraftLedger.Proofs.ExactlyOnce
import DraftLedger.Proofs.Projection
import DraftLedger.Proofs.WellFormed

/-!
# Edits of rows that are shown

A row that a page shows for a change is edited by what it shows.  The page and the ledger have their
own ways to tell whose row it is: the page asks which change fits a fetched row, and the ledger which
change the address of the edit points at.  They come to the same change unless the columns of the
change and of the address do not fit each other, or an earlier change is pointed at as well.

* `Row.addressBy` : the address of an edit that is made of a row.
* `DisplayRow.IsOf` : the rows that a page shows for a change.
* `DisplayRow.IsOf.isTargetedBy` : whether the address points at the change is up to the columns.
* `History.followUp_lands` : what comes of the edit.
-/

set_option autoImplicit false

namespace DraftLedger

/-! ## Addresses -/

/-- The address of an edit that is made of a row and has no key of its own: the key of the row over the
registered columns if it has them all, else the whole row. -/
def Row.addressBy (row : Row) (registered : Option (List String)) : Address :=
  match registered.bind row.select? with
  | some key => .key key
  | none => .fullRow row

theorem Row.addressBy_cases (row : Row) (registered : Option (List String)) :
    (∃ columns key, row.select? columns = some key ∧ row.addressBy registered = .key key) ∨
      row.addressBy registered = .fullRow row := by
  unfold addressBy
  cases found : registered.bind row.select? with
  | none => exact .inr rfl
  | some key =>
    obtain ⟨columns, -, selected⟩ := Option.bind_eq_some_iff.1 found
    exact .inl ⟨columns, key, selected, rfl⟩

/-- Whether the columns of an address let it point at the change: those of its key are in the address,
and are all of it if the address is a key; or, without a key, those of the address are in its row. -/
def Change.answers (c : Change) (address : Address) : Bool :=
  match c.usableKey? with
  | some own => own.within address.columns && (address.isFullRow || address.columns.within own)
  | none => address.columns.within (c.currentImage.getD Dict.empty)

/-! ## Rows that are shown for a change -/

namespace Change

variable {c : Change} {row own known : Row}

theorem covers_of_fitsFetched (usable : c.usableKey? = some own) (fits : c.fitsFetched row = true) :
    row.covers own = true := by
  simp only [fitsFetched, usable, Address.matchesRow, Bool.and_eq_true] at fits
  exact fits.2

/-- A fetched row that fits a change without a key has all that is known of the row of the change. -/
theorem known_of_fitsFetched (usable : c.usableKey? = none) (fits : c.fitsFetched row = true) :
    c.kind ≠ .insert ∧ ∃ known, c.knownImage = some known ∧ row.covers known = true := by
  unfold fitsFetched at fits
  rw [usable] at fits
  simp only at fits
  split at fits
  · cases fits
  next notInsert =>
  refine ⟨notInsert, ?_⟩
  cases image : c.knownImage with
  | none => simp [address?, usable, image] at fits
  | some known =>
    cases empty : known.isEmpty with
    | true => simp [address?, usable, image, Option.filter, empty] at fits
    | false =>
      rw [address?_of_image usable image empty] at fits
      simp only [Option.map_some, Option.getD_some, Address.matchesRow, Bool.and_eq_true] at fits
      exact ⟨known, rfl, fits.2⟩

/-- The row of an update or deletion has the new values over what is known of it. -/
theorem currentImage_of_known (shaped : c.Shaped) (notInsert : c.kind ≠ .insert)
    (image : c.knownImage = some known) :
    c.currentImage = some (known.overlay (c.newValues.getD Dict.empty)) := by
  cases kind : c.kind with
  | insert => exact absurd kind notInsert
  | update =>
    simp only [knownImage, kind] at image
    simp [currentImage, kind, image]
  | delete =>
    obtain ⟨-, none⟩ := (shaped_delete kind).1 shaped
    simp only [knownImage, kind] at image
    simp only [currentImage, kind, image, none]
    rfl

/-- Something is known of the row of a change without a key, and its row after the change has these
columns. -/
theorem WellFormed.image (h : c.WellFormed) (usable : c.usableKey? = none) :
    ∃ known image, c.knownImage = some known ∧ known.isEmpty = false ∧
      c.currentImage = some image ∧ known.within image = true ∧ image.isEmpty = false := by
  obtain ⟨known, before, nonempty⟩ : Row.Given c.knownImage := by
    refine (isSome_address?_iff.1 h.addressed).resolve_left fun given => ?_
    rw [← isSome_usableKey?_iff, usable] at given
    cases given
  by_cases insertion : c.kind = .insert
  · have current : c.currentImage = some known := by
      simp only [knownImage, insertion] at before
      simp only [currentImage, insertion, before]
    exact ⟨known, known, before, nonempty, current, Row.within_of_beq BEq.rfl, nonempty⟩
  · exact ⟨known, _, before, nonempty, currentImage_of_known h.shaped insertion before,
      Row.within_overlay _ _, Dict.isEmpty_overlay nonempty _⟩

end Change

/-- The rows that a page can show for a change. -/
inductive DisplayRow.IsOf (c : Change) : DisplayRow → Prop
  | fetched {row : Row} (index : Nat) (fits : c.fitsFetched row = true) : IsOf c (changed index row c)
  | synthetic (insertion : c.kind = .insert) : IsOf c (synthetic c)

/-- How a row is shown for a change of this kind. -/
def ChangeKind.shown : ChangeKind → RowState
  | .insert => .inserted
  | .update => .updated
  | .delete => .pendingDelete

namespace DisplayRow

variable {c : Change} {d : DisplayRow} {row own now image : Row}

theorem changed_changeId (index : Nat) (row : Row) (c : Change) :
    (changed index row c).changeId = some c.id := by
  unfold changed
  cases c.kind <;> rfl

theorem changed_state (index : Nat) (row : Row) (c : Change) :
    (changed index row c).state = c.kind.shown := by
  unfold changed
  cases c.kind <;> rfl

theorem changed_values (index : Nat) (row : Row) (shaped : c.Shaped) :
    (changed index row c).values = row.overlay (c.newValues.getD Dict.empty) := by
  unfold changed
  cases kind : c.kind with
  | insert => rfl
  | update => rfl
  | delete =>
    obtain ⟨-, none⟩ := (Change.shaped_delete kind).1 shaped
    rw [none]
    rfl

theorem IsOf.changeId (h : d.IsOf c) : d.changeId = some c.id := by
  cases h with
  | fetched index fits => exact changed_changeId ..
  | synthetic insertion => rfl

theorem IsOf.state (h : d.IsOf c) : d.state = c.kind.shown := by
  cases h with
  | fetched index fits => exact changed_state ..
  | synthetic insertion =>
    rw [insertion]
    rfl

/-- A row that is shown for a change with a key has nothing else in the columns of the key that the
row of the change will have. -/
theorem IsOf.keepsKey (h : d.IsOf c) (shaped : c.Shaped) (usable : c.usableKey? = some own)
    (current : c.currentKey? = some now) : d.values.KeepsKey now := by
  intro column v w hv hw
  rw [Change.get?_currentKey? usable current] at hw
  obtain ⟨u, hu, rfl⟩ := Option.map_eq_some_iff.1 hw
  cases h with
  | fetched index fits =>
    rw [changed_values index _ shaped, Dict.get?_overlay] at hv
    cases new : (c.newValues.getD Dict.empty).get? column with
    | some x =>
      obtain rfl : x = v := by simpa [new] using hv
      exact BEq.rfl
    | none =>
      have covered := Change.covers_of_fitsFetched usable fits
      exact Row.keepsKey_of_covers covered column v u (by simpa [new] using hv) hu
  | synthetic insertion =>
    have new : (c.newValues.getD Dict.empty).get? column = some v := hv
    rw [new]
    exact BEq.rfl

/-- A row that is shown for a change without a key has all that the row of the change will have. -/
theorem IsOf.covers (h : d.IsOf c) (shaped : c.Shaped) (usable : c.usableKey? = none)
    (current : c.currentImage = some image) : d.values.covers image = true := by
  cases h with
  | @fetched row index fits =>
    rw [changed_values index _ shaped]
    obtain ⟨notInsert, known, before, covered⟩ := Change.known_of_fitsFetched usable fits
    obtain rfl : known.overlay (c.newValues.getD Dict.empty) = image :=
      Option.some.inj ((Change.currentImage_of_known shaped notInsert before).symm.trans current)
    exact Row.covers_overlay_both covered _
  | synthetic insertion =>
    have new : (DisplayRow.synthetic c).values = c.newValues.getD Dict.empty := rfl
    rw [Change.currentImage, insertion] at current
    simp only at current
    rw [new, current]
    exact Row.covers_iff.2 fun column w hw => Row.holds_iff.2 ⟨w, hw, BEq.rfl⟩

theorem IsOf.isEmpty (h : d.IsOf c) (wf : c.WellFormed) : d.values.isEmpty = false := by
  cases h with
  | @fetched row index fits =>
    rw [changed_values index row wf.shaped]
    refine Dict.isEmpty_overlay ?_ _
    cases usable : c.usableKey? with
    | some own =>
      exact Row.isEmpty_of_covers (Change.covers_of_fitsFetched usable fits)
        (Change.usableKey?_eq_some.1 usable).2
    | none =>
      obtain ⟨-, known, before, covered⟩ := Change.known_of_fitsFetched usable fits
      obtain ⟨known', -, before', nonempty, -⟩ := wf.image usable
      obtain rfl := Option.some.inj (before.symm.trans before')
      exact Row.isEmpty_of_covers covered nonempty
  | synthetic insertion => exact Row.given_iff.1 ((Change.shaped_insert insertion).1 wf.shaped).2

/-! ## Whose row it is -/

section Addressed

variable {address : Address}

/-- A change with a key is reached by a row that is shown for it when the row has the columns of the key,
and by a key of that row over the same columns. -/
theorem IsOf.isTargetedBy_of_key (h : d.IsOf c) (wf : c.WellFormed) (usable : c.usableKey? = some own)
    (registered : Option (List String)) (addressed : d.values.addressBy registered = address) :
    c.isTargetedBy address = true ↔ own.within address.columns = true ∧
      (address.isFullRow = true ∨ address.columns.within own = true) := by
  obtain ⟨now, current, -⟩ := Change.currentKey?_isSome usable
  have keeps : d.values.KeepsKey now := h.keepsKey wf.shaped usable current
  have columns (column : String) : now.contains column = own.contains column := by
    simp [Dict.contains, Change.get?_currentKey? usable current]
  rcases d.values.addressBy_cases registered with ⟨names, key, selected, way⟩ | way
  · obtain rfl := way.symm.trans addressed
    have same : (key == now) = (key.within own && own.within key) := by
      rw [Row.beq_eq_within (keeps.select? selected), Row.within_congr columns fun _ => rfl,
        Row.within_congr (fun _ => rfl) columns]
    rw [Change.isTargetedBy_key_iff usable]
    simp only [current, Option.some.injEq, exists_eq_left', same, Bool.and_eq_true]
    constructor
    · rintro (equal | ⟨there, back⟩)
      · exact ⟨Row.within_of_beq (BEq.symm equal), .inr (Row.within_of_beq equal)⟩
      · exact ⟨back, .inr there⟩
    · rintro ⟨back, full | there⟩
      · cases full
      · exact .inr ⟨there, back⟩
  · obtain rfl := way.symm.trans addressed
    rw [Change.isTargetedBy_row_iff usable]
    simp only [current, Option.some.injEq, exists_eq_left', Row.covers_eq_within keeps,
      Row.within_congr columns fun _ => rfl]
    exact ⟨fun all => ⟨all, .inl rfl⟩, fun both => both.1⟩

/-- A change without a key is reached by a row that is shown for it, or by a key of that row, when the
change knows all their columns. -/
theorem IsOf.isTargetedBy_of_image (h : d.IsOf c) (wf : c.WellFormed) (usable : c.usableKey? = none)
    (registered : Option (List String)) (addressed : d.values.addressBy registered = address) :
    c.isTargetedBy address = address.columns.within (c.currentImage.getD Dict.empty) := by
  obtain ⟨known, image, before, nonempty, current, more, nonempty'⟩ := wf.image usable
  have covers := h.covers wf.shaped usable current
  have keeps : d.values.KeepsKey image := Row.keepsKey_of_covers covers
  rw [current, Option.getD_some, Bool.eq_iff_iff]
  rcases d.values.addressBy_cases registered with ⟨names, key, selected, way⟩ | way
  · obtain rfl := way.symm.trans addressed
    rw [Change.isTargetedBy_key_iff_covers usable before nonempty (Row.isEmpty_of_select? selected)]
    simp only [current, Option.some.injEq, exists_eq_left',
      Row.covers_eq_within (keeps.select? selected).symm, Address.columns]
  · -- A whole row is held against the images of the change, and these may have fewer columns.
    obtain rfl := way.symm.trans addressed
    rw [Change.isTargetedBy_row_iff_same usable before nonempty]
    simp only [current, Option.some.injEq, exists_eq_left', Address.columns]
    constructor
    · rintro (same | ⟨-, same⟩)
      · exact Row.within_trans (Row.within_of_beq same) more
      · exact Row.within_of_beq same
    · intro all
      refine .inr ⟨nonempty', ?_⟩
      rw [Row.beq_eq_within keeps, all, Row.within_of_covers covers, Bool.and_self]

/-- Whether an edit that is made of a row which is shown for a change points at the change is up to the
columns. -/
theorem IsOf.isTargetedBy (h : d.IsOf c) (wf : c.WellFormed) (registered : Option (List String)) :
    c.isTargetedBy (d.values.addressBy registered) =
      c.answers (d.values.addressBy registered) := by
  unfold Change.answers
  cases usable : c.usableKey? with
  | some own =>
    rw [Bool.eq_iff_iff, h.isTargetedBy_of_key wf usable registered rfl]
    simp only [Bool.and_eq_true, Bool.or_eq_true]
  | none => exact h.isTargetedBy_of_image wf usable registered rfl

end Addressed

end DisplayRow

namespace Page

variable {fetched : List Row} {d : DisplayRow} {i : ChangeId}

theorem overlayFetched_isOf (index : Nat) (left : List Change) (fetched : List Row) :
    (∀ d ∈ (overlayFetched index left fetched).1, ∀ i, d.changeId = some i →
      ∃ c ∈ left, d.IsOf c) ∧ ∀ c ∈ (overlayFetched index left fetched).2, c ∈ left := by
  induction fetched generalizing index left with
  | nil => exact ⟨fun d hd => absurd hd List.not_mem_nil, fun c hc => hc⟩
  | cons row rest ih =>
    cases taken : Change.taken? left row with
    | none =>
      rw [overlayFetched, takeFirst_of_none taken]
      obtain ⟨shown, fewer⟩ := ih (index + 1) left
      refine ⟨fun d hd i of => ?_, fewer⟩
      rcases List.mem_cons.1 hd with rfl | hd
      · cases of
      · exact shown d hd i of
    | some c =>
      obtain ⟨fits, before, after, rfl, passed⟩ := Change.taken?_eq_some.1 taken
      rw [overlayFetched, takeFirst_of_fit passed fits]
      obtain ⟨shown, fewer⟩ := ih (index + 1) (before ++ after)
      refine ⟨fun d hd i of => ?_, fun c' hc' => others_subset (fewer c' hc')⟩
      rcases List.mem_cons.1 hd with rfl | hd
      · exact ⟨c, by simp, .fetched index fits⟩
      · obtain ⟨c', hc', isOf⟩ := shown d hd i of
        exact ⟨c', others_subset hc', isOf⟩

/-- A row of a page that has the identifier of a change is shown for a change with it. -/
theorem overlay_isOf {display : DeleteDisplay} {changes : List Change}
    (shown : d ∈ (overlay display changes fetched).rows ++ (overlay display changes fetched).hidden)
    (of : d.changeId = some i) : ∃ c ∈ changes, c.id = i ∧ d.IsOf c := by
  have ofChange {c : Change} (mem : c ∈ changes) (isOf : d.IsOf c) :
      ∃ c ∈ changes, c.id = i ∧ d.IsOf c :=
    ⟨c, mem, Option.some.inj (isOf.changeId.symm.trans of), isOf⟩
  obtain ⟨fetchedOnes, fewer⟩ := overlayFetched_isOf 0 changes fetched
  have fetchedOne (mem : d ∈ (overlayFetched 0 changes fetched).1) :
      ∃ c ∈ changes, c.id = i ∧ d.IsOf c := by
    obtain ⟨c, mem, isOf⟩ := fetchedOnes d mem i of
    exact ofChange mem isOf
  simp only [overlay, List.mem_append, List.mem_filter, List.mem_map] at shown
  rcases shown with (⟨mem, -⟩ | ⟨c, ⟨mem, insertion⟩, rfl⟩) | ⟨mem, -⟩
  · exact fetchedOne mem
  · exact ofChange (fewer c mem) (.synthetic (by simpa using insertion))
  · exact fetchedOne mem

end Page

/-! ## Edits without a key -/

namespace Edit

variable {edit : Edit} {id : ChangeId} {stamp : Stamp}

theorem toChange_knownImage (edit : Edit) (id : ChangeId) (stamp : Stamp) :
    (edit.toChange id stamp).knownImage = some edit.knownValues := by
  cases edit <;> rfl

/-- An edit without a key of its own points at its row by the registered columns if it knows them all,
else by all that it knows of the row. -/
theorem address?_of_keyless (keyless : edit.usableKey? = none)
    (nonempty : edit.knownValues.isEmpty = false) (keyColumns : KeyColumns) :
    ((edit.withRegisteredKey keyColumns).toChange id stamp).address? =
      some (edit.knownValues.addressBy (keyColumns.get? edit.table)) := by
  have whole {e : Edit} (keyless : e.usableKey? = none) (known : e.knownValues = edit.knownValues) :
      (e.toChange id stamp).address? = some (.fullRow edit.knownValues) :=
    Change.address?_of_image (by simpa using keyless) (known ▸ e.toChange_knownImage id stamp) nonempty
  unfold withRegisteredKey Row.addressBy
  rw [keyless]
  cases keyColumns.get? edit.table with
  | none => exact whole keyless rfl
  | some columns =>
    cases selected : edit.knownValues.select? columns with
    | none =>
      simp only [Option.bind_some, selected]
      exact whole (by cases edit <;> rfl) (by cases edit <;> rfl)
    | some key =>
      have nonempty' : key.isEmpty = false := Row.isEmpty_of_select? selected
      have usable : (edit.withKey (some key)).usableKey? = some key := by
        cases edit <;> simp [Edit.withKey, usableKey?, primaryKey, Option.filter, nonempty']
      simp only [Option.bind_some, selected]
      exact Change.address?_of_key (by simpa using usable)

end Edit

/-- The edit is an update or deletion of a row of the table, without a key of its own. -/
structure Edit.MadeOf (edit : Edit) (table : Table) (row : Row) : Prop where
  notInsert : edit.kind ≠ .insert
  table : edit.table = table
  keyless : edit.usableKey? = none
  known : edit.knownValues = row

theorem Edit.MadeOf.address? {edit : Edit} {table : Table} {row : Row} {id : ChangeId} {stamp : Stamp}
    (h : edit.MadeOf table row) (nonempty : row.isEmpty = false) (keyColumns : KeyColumns) :
    ((edit.withRegisteredKey keyColumns).toChange id stamp).address? =
      some (row.addressBy (keyColumns.get? table)) := by
  obtain ⟨-, rfl, keyless, rfl⟩ := h
  exact address?_of_keyless keyless nonempty keyColumns

/-! ## Edits of rows that are shown -/

/-- The answer to an edit of a row that is shown like this, when it lands on the change of the row. -/
def RowState.landing (state : RowState) (kind : ChangeKind) (table : Table) (id : ChangeId) :
    Except Error Outcome :=
  match state, kind with
  | .pendingDelete, _ => .error (.conflict table .stagedForDeletion)
  | .inserted, .delete => .ok (.cancelled id)
  | .updated, .delete => .ok (.replaced id)
  | _, _ => .ok (.merged id)

theorem Change.takeIn_landing {c incoming : Change} (notInsert : incoming.kind ≠ .insert) :
    (c.takeIn incoming).map Prod.snd =
      c.kind.shown.landing incoming.kind incoming.table c.id := by
  unfold takeIn
  cases c.kind <;> cases kind : incoming.kind <;> first | exact absurd kind notInsert | rfl

/-! ## Where such an edit lands -/

/-- The columns let the address point at the change, and it points at no change before it. -/
def Change.IsFirstAt (c : Change) (address : Address) (before : List Change) : Prop :=
  c.answers address = true ∧ ∀ other ∈ before, ¬ other.Receives c.table address

section Landing

variable {before : List Change} {c incoming : Change} {address : Address}
  (notInsert : incoming.kind ≠ .insert) (found : incoming.address? = some address)
  (table : c.table = incoming.table) (targeted : c.isTargetedBy address = c.answers address)
include notInsert found

include table targeted in
theorem Change.IsFirstAt.stage (first : c.IsFirstAt address before) (after : List Change) :
    stage (before ++ c :: after) incoming =
      (c.takeIn incoming).map fun r => (before ++ r.1.toList ++ after, r.2) := by
  rw [stage_of_ne_insert found notInsert]
  exact stageAt_of_receives (table ▸ first.2) ⟨table, targeted.trans first.1⟩

include table targeted in
theorem Change.isFirstAt_of_stage {after result : List Change} {outcome : Outcome}
    (nodup : ((before ++ c :: after).map (·.id)).Nodup) (new : incoming.id ≠ c.id)
    (staged : DraftLedger.stage (before ++ c :: after) incoming = .ok (result, outcome))
    (here : outcome.changeId = c.id) : c.IsFirstAt address before := by
  obtain ⟨address', found', ⟨-, rfl, -⟩ | ⟨-, before', existing, after', taken, split, passed, receives,
    takes, -⟩⟩ := stage_cases staged
  · exact absurd here new
  obtain rfl : address = address' := Option.some.inj (found.symm.trans found')
  have identified : outcome.changeId = existing.id := by
    rcases takeIn_cases takes notInsert with
      ⟨-, -, -, rfl⟩ | ⟨-, -, -, rfl⟩ | ⟨-, -, -, rfl⟩ | ⟨-, -, -, rfl⟩ <;> rfl
  have mem : existing ∈ before ++ c :: after := by simp [split]
  obtain rfl : c = existing :=
    List.inj_on_of_nodup_map nodup (by simp) mem (here.symm.trans identified)
  obtain ⟨none, -⟩ := List.nodup_cons.1 (List.nodup_middle.1 nodup.of_map)
  rw [List.mem_append, not_or] at none
  obtain ⟨rfl, -, -⟩ := (List.append_cons_inj_of_notMem none.1 none.2).1 split
  exact ⟨targeted.symm.trans receives.2, table ▸ passed⟩

/-- An edit becomes a change of its own exactly when its address points at no change of its table. -/
theorem stage_appended_iff {changes : List Change} :
    (stage changes incoming).map Prod.snd = .ok (.appended incoming.id) ↔
      ∀ other ∈ changes, ¬ other.Receives incoming.table address := by
  constructor
  · intro appended
    cases staged : stage changes incoming with
    | error refusal =>
      rw [staged] at appended
      cases appended
    | ok r =>
      obtain ⟨result, outcome⟩ := r
      rw [staged] at appended
      obtain rfl : outcome = .appended incoming.id := Except.ok.inj appended
      obtain ⟨address', found', ⟨-, -, ⟨insertion, -⟩ | free⟩ | ⟨-, before', existing, after', taken,
        rfl, passed, receives, takes, -⟩⟩ := stage_cases staged
      · exact absurd insertion notInsert
      · obtain rfl : address = address' := Option.some.inj (found.symm.trans found')
        exact free
      · rcases Change.takeIn_cases takes notInsert with
          ⟨-, -, -, eq⟩ | ⟨-, -, -, eq⟩ | ⟨-, -, -, eq⟩ | ⟨-, -, -, eq⟩ <;> cases eq
  · intro free
    rw [stage_of_ne_insert found notInsert, stageAt_of_not_receives free]
    rfl

end Landing

namespace Ledger

variable {l : Ledger} {s : SessionId} {edit : Edit} {id : ChangeId} {now : UInt64}

/-- Why an edit of an active session does not come to be staged: it changes nothing, an apply holds the
session, or the clock has no further reading. -/
inductive Unstaged (l : Ledger) (s : SessionId) (edit : Edit) (now : UInt64) : Failure → Prop
  | void {refusal : Error} (invalid : edit.check = .error refusal) :
      Unstaged l s edit now (.refused refusal)
  | held (checked : edit.check = .ok ()) (frozen : l.isFrozen s = true) :
      Unstaged l s edit now (.refused (.applyInProgress s))
  | overrun (checked : edit.check = .ok ()) (free : l.isFrozen s = false)
      (spent : ¬ (l.load s).clock.HasNext now) : Unstaged l s edit now .overrun

theorem record_unstaged {failure : Failure} (active : l.isActive s = true)
    (unstaged : l.Unstaged s edit now failure) :
    (l.record s edit id now).answer = .error failure ∧
      (l.record s edit id now).ledger.changes s = l.changes s := by
  have loaded := l.load_loaded s
  cases unstaged with
  | void invalid =>
    simp only [record, invalid]
    exact ⟨rfl, rfl⟩
  | held checked frozen =>
    have frozen' : (l.session s).frozen = true := frozen
    simp only [record, checked, loaded.session s, frozen', if_true]
    exact ⟨rfl, loaded.changes s⟩
  | overrun checked free spent =>
    rw [record_overrun id checked free active (Clock.next?_eq_none_iff.2 spent)]
    exact ⟨rfl, loaded.changes s⟩

variable {d : DisplayRow} {before after : List Change} {c : Change}

/-- What comes of an accepted edit that is made of a row which is shown for a change: the edit lands on
the change exactly when it is the first one that the address points at. -/
theorem record_followUp (active : l.isActive s = true) (free : l.isFrozen s = false)
    (room : (l.load s).clock.HasNext now) (checked : edit.check = .ok ())
    (split : l.changes s = before ++ c :: after)
    (nodup : (l.ids s).Nodup) (new : id ≠ c.id) (wf : c.WellFormed) (isOf : d.IsOf c)
    (made : edit.MadeOf c.table d.values) :
    let address := d.values.addressBy (l.keyColumns.get? c.table)
    let step := l.record s edit id now
    (c.IsFirstAt address before →
        step.answer = (d.state.landing edit.kind c.table c.id).mapError .refused ∧
        ∃ taken : Option Change, step.ledger.changes s = before ++ taken.toList ++ after ∧
          ∀ c' ∈ taken, c'.id = c.id) ∧
      (¬ c.IsFirstAt address before →
        ∀ outcome, step.answer = .ok outcome → outcome.changeId ≠ c.id) ∧
      (step.answer = .ok (.appended id) ↔
        ∀ other ∈ l.changes s, ¬ other.Receives c.table address) := by
  intro address step
  obtain ⟨stamp, reading⟩ := Clock.hasNext_iff.1 room
  let incoming := (edit.withRegisteredKey l.keyColumns).toChange id stamp
  have kind : incoming.kind = edit.kind := by simp [incoming]
  have table : c.table = incoming.table := by simp [incoming, made.table]
  have notInsert : incoming.kind ≠ .insert := kind ▸ made.notInsert
  have found : incoming.address? = some address := made.address? (isOf.isEmpty wf) l.keyColumns
  have targeted : c.isTargetedBy address = c.answers address := isOf.isTargetedBy wf _
  have result : stage (l.changes s) incoming = stage (l.changes s) incoming := rfl
  obtain ⟨answer, changes⟩ := record_staged checked free active reading result
  have appended : _ ↔ ∀ other ∈ l.changes s, ¬ other.Receives incoming.table address :=
    stage_appended_iff notInsert found
  rw [← table] at appended
  rw [ids, split] at nodup
  refine ⟨fun first => ?_, fun notFirst outcome ok here => notFirst ?_, ?_⟩
  · have staged := first.stage notInsert found table targeted after
    have landing := Change.takeIn_landing (c := c) notInsert
    rw [kind, ← table, ← isOf.state] at landing
    rw [answer, changes, split, staged, ← landing]
    cases takes : c.takeIn incoming with
    | error refusal => exact ⟨rfl, some c, by simp [Except.map, Except.toOption], by simp⟩
    | ok r =>
      obtain ⟨taken, outcome⟩ := r
      refine ⟨rfl, taken, rfl, fun c' hc' => ?_⟩
      obtain rfl := Option.mem_def.1 hc'
      exact (Change.takeIn_identity takes notInsert).1
  · rw [answer, split] at ok
    cases staged : stage (before ++ c :: after) incoming with
    | error refusal =>
      rw [staged] at ok
      cases ok
    | ok r =>
      rw [staged] at ok
      cases ok
      exact Change.isFirstAt_of_stage notInsert found table targeted nodup new staged here
  · rw [answer, mapError_eq_ok_iff]
    exact appended

end Ledger

/-! ## Changes by different keys -/

namespace Change.ByKey

variable {columns : List String} {base : List Row} {c : Change} {own key : Row} {d : DisplayRow}

theorem keeps (h : c.ByKey columns base own) (shaped : c.Shaped) :
    (c.newValues.getD Dict.empty).KeepsKey own := by
  cases kind : c.kind with
  | insert => exact Row.keepsKey_of_covers (h.inserted kind).2
  | update => exact h.updated kind
  | delete =>
    rw [((shaped_delete kind).1 shaped).2]
    exact nofun

theorem covers_values (h : c.ByKey columns base own) (shaped : c.Shaped) (isOf : d.IsOf c) :
    d.values.covers own = true := by
  cases isOf with
  | @fetched row index fits =>
    rw [h.fitsFetched] at fits
    rw [DisplayRow.changed_values index row shaped]
    exact Row.covers_overlay_self (h.keeps shaped) fits
  | synthetic insertion => exact (h.inserted insertion).2

end Change.ByKey

/-- The key of a row that is shown for a change by a key is the key of the change, and of no other one
of the table. -/
theorem ByKeys.isFirstAt {columns : List String} {fetched : List Row} {before after : List Change}
    {c : Change} {d : DisplayRow}
    (h : ByKeys columns fetched ((before ++ c :: after).filter fun x => x.table = c.table))
    (all : ∀ other ∈ before ++ c :: after, other.WellFormed) (isOf : d.IsOf c) :
    c.IsFirstAt (d.values.addressBy (some columns)) before := by
  obtain ⟨own, byKey⟩ := h.byKey c (by simp)
  have covered := byKey.covers_values (all c (by simp)).shaped isOf
  obtain ⟨key, selected⟩ : ∃ key, d.values.select? columns = some key := by
    obtain ⟨column, v, found⟩ :=
      Dict.isEmpty_eq_false_iff.1 (Change.usableKey?_eq_some.1 byKey.usable).2
    refine Row.select?_of_contains ?_ fun column mem => ?_
    · exact List.ne_nil_of_mem ((byKey.spans column).1 (Option.isSome_of_mem found))
    · exact Row.within_iff.1 (Row.within_of_covers covered) column ((byKey.spans column).2 mem)
  have same : (key == own) = true := Row.beq_of_covers (Row.spansOver_of_select? selected)
    byKey.spans (Row.covers_of_select? selected) covered
  have address : d.values.addressBy (some columns) = .key key := by
    simp [Row.addressBy, selected]
  rw [address]
  constructor
  · simp [Change.answers, byKey.usable, Address.columns, Row.within_of_beq same,
      Row.within_of_beq (BEq.symm same)]
  · -- An earlier change that the key points at would have the key of this one.
    rintro other mem ⟨table, targeted⟩
    have mem' : other ∈ before.filter fun x => x.table = c.table :=
      List.mem_filter.2 ⟨mem, by simpa using table⟩
    obtain ⟨own', byKey'⟩ := h.byKey other (by simp [mem, table])
    have shaped' : other.Shaped := (all other (by simp [mem])).shaped
    have same' : (key == own') = true :=
      (Change.isTargetedBy_key_iff_of_keepsKey byKey'.usable (byKey'.keeps shaped')).1 targeted
    have differ := h.differ
    rw [List.filter_append, List.pairwise_append] at differ
    have apart := differ.2.2 other mem' c (by simp) own' own byKey'.usable byKey.usable
    rw [BEq.trans (BEq.symm same') same] at apart
    cases apart

/-! ## Runs -/

namespace History

open Engine

variable {e : Engine} {h : History} {settings : Settings} {listing : Listing} {database : Database}
  {s : SessionId} {table : Table} {fetched : List Row} {d : DisplayRow} {i id : ChangeId}
  {edit : Edit} {now : UInt64}

/-- After every run from an empty store, changes are well formed and told apart by their identifiers. -/
theorem Reaches.wellFormed (opened : Engine.opened settings (Store.empty listing) database = .ok e)
    (reaches : Reaches Fresh (start e []) h) :
    h.engine.ledger.Throughout Change.WellFormed ∧ h.Sound ∧ h.engine.ledger.Distinct [] := by
  have identified := opened_identified opened
  refine reaches.invariant
    (p := fun h => h.engine.ledger.Throughout Change.WellFormed ∧ h.Sound ∧
      h.engine.ledger.Distinct [])
    ⟨opened_throughout opened, sound_start opened identified, distinct_start opened identified⟩ ?_
  rintro h m ⟨all, sound, distinct⟩ fresh
  exact ⟨perform_wellFormed sound.space all, sound.step fresh,
    sound.distinct_step distinct (List.nil_subset _) fresh⟩

/-- A row that a page of an active session shows for a change is shown for one change of the session,
which is of the table of the page. -/
theorem Reaches.shown_change (opened : Engine.opened settings (Store.empty listing) database = .ok e)
    (reaches : Reaches Fresh (start e []) h) (active : h.engine.ledger.isActive s = true)
    (shown : d ∈ (h.engine.page s table fetched).1.rows ++ (h.engine.page s table fetched).1.hidden)
    (of : d.changeId = some i) :
    ∃ before c after, h.engine.ledger.changes s = before ++ c :: after ∧ c.id = i ∧
      (∀ other ∈ before ++ after, other.id ≠ i) ∧ c.table = table ∧ c.WellFormed ∧ d.IsOf c ∧
      i ∈ h.issued := by
  obtain ⟨all, sound, distinct⟩ := reaches.wellFormed opened
  have page : (h.engine.page s table fetched).1 =
      Page.overlay h.engine.settings.deleteDisplay (h.engine.ledger.changesOn s table) fetched := by
    simp [Engine.page, look, active]
  rw [page] at shown
  obtain ⟨c, mem, rfl, isOf⟩ := Page.overlay_isOf shown of
  obtain ⟨mem, onTable⟩ := List.mem_filter.1 mem
  obtain ⟨before, after, split⟩ := List.append_of_mem mem
  refine ⟨before, c, after, split, rfl, fun other others same => ?_, by simpa using onTable,
    all.changes s c mem, isOf, sound.issued_of_has (s := s) .memory (List.mem_map_of_mem mem)⟩
  have nodup := distinct.nodup s _ .memory
  rw [Ledger.ids, split, List.map_append, List.map_cons, List.nodup_middle, ← List.map_append] at nodup
  exact (List.nodup_cons.1 nodup).1 (List.mem_map.2 ⟨other, others, same⟩)

/-- What comes of an edit that is made of a row as it is shown for a change.  Edits that change nothing,
edits of held sessions and edits without a reading of the clock fail.  Otherwise the edit lands on that
change exactly when its address has the columns for that and points at no earlier change of the table;
and it becomes a change of its own exactly when its address points at no change of the table. -/
theorem followUp_lands
    (opened : Engine.opened settings (Store.empty listing) database = .ok e)
    (reaches : Reaches Fresh (start e []) h) (fresh : h.Fresh (.record s edit id now))
    (active : h.engine.ledger.isActive s = true)
    (shown : d ∈ (h.engine.page s table fetched).1.rows ++ (h.engine.page s table fetched).1.hidden)
    (of : d.changeId = some i) (made : edit.MadeOf table d.values) :
    ∃ before c after, h.engine.ledger.changes s = before ++ c :: after ∧
      c.id = i ∧ (∀ other ∈ before ++ after, other.id ≠ i) ∧
      c.table = table ∧ d.state = c.kind.shown ∧
      let address := d.values.addressBy (h.engine.ledger.keyColumns.get? table)
      let step := h.engine.ledger.record s edit id now
      (∀ failure, h.engine.ledger.Unstaged s edit now failure →
        step.answer = .error failure ∧ step.ledger.changes s = h.engine.ledger.changes s) ∧
      (h.engine.ledger.isFrozen s = false → edit.check = .ok () →
        (h.engine.ledger.load s).clock.HasNext now →
        (c.IsFirstAt address before →
          step.answer = (d.state.landing edit.kind table i).mapError .refused ∧
          ∃ taken : Option Change, step.ledger.changes s = before ++ taken.toList ++ after ∧
            ∀ c' ∈ taken, c'.id = i) ∧
        (¬ c.IsFirstAt address before →
          ∀ outcome, step.answer = .ok outcome → outcome.changeId ≠ i) ∧
        (step.answer = .ok (.appended id) ↔
          ∀ other ∈ h.engine.ledger.changes s, ¬ other.Receives table address)) := by
  obtain ⟨-, -, distinct⟩ := reaches.wellFormed opened
  obtain ⟨before, c, after, split, rfl, alone, rfl, wf, isOf, issued⟩ :=
    reaches.shown_change opened active shown of
  have new : id ≠ c.id := fun same => fresh.1 (same ▸ issued)
  refine ⟨before, c, after, split, rfl, alone, rfl, isOf.state, ?_⟩
  intro address step
  refine ⟨fun failure => Ledger.record_unstaged active, fun free checked room => ?_⟩
  exact Ledger.record_followUp active free room checked split (distinct.nodup s _ .memory) new wf isOf
    made

/-- Where the changes of a table point at their rows by different keys over the registered columns, and
leave these keys as they are, every accepted edit of a row that is shown for a change lands on it. -/
theorem followUp_lands_of_byKeys {columns : List String}
    (opened : Engine.opened settings (Store.empty listing) database = .ok e)
    (reaches : Reaches Fresh (start e []) h) (fresh : h.Fresh (.record s edit id now))
    (active : h.engine.ledger.isActive s = true) (free : h.engine.ledger.isFrozen s = false)
    (room : (h.engine.ledger.load s).clock.HasNext now)
    (registered : h.engine.ledger.keyColumns.get? table = some columns)
    (byKeys : ByKeys columns fetched (h.engine.ledger.changesOn s table))
    (shown : d ∈ (h.engine.page s table fetched).1.rows ++ (h.engine.page s table fetched).1.hidden)
    (of : d.changeId = some i) (made : edit.MadeOf table d.values) (checked : edit.check = .ok ()) :
    (h.engine.ledger.record s edit id now).answer =
      (d.state.landing edit.kind table i).mapError .refused := by
  obtain ⟨all, -, distinct⟩ := reaches.wellFormed opened
  obtain ⟨before, c, after, split, rfl, -, rfl, wf, isOf, issued⟩ :=
    reaches.shown_change opened active shown of
  have new : id ≠ c.id := fun same => fresh.1 (same ▸ issued)
  have landing := (Ledger.record_followUp active free room checked split
    (distinct.nodup s _ .memory) new wf isOf made).1
  rw [registered] at landing
  rw [Ledger.changesOn, split] at byKeys
  exact (landing (byKeys.isFirstAt (fun other hm => all.changes s other (split ▸ hm)) isOf)).1

end History

namespace Sample

open Engine History

/-- An item with a size. -/
def sized (id : Int64) (name : String) : Row := (item id name).insert "size" (.integer 3)

/-- A row without a key, of which this is known, is renamed. -/
def relabelled (known : Row) : History :=
  ((start engine []).step (.activate desk)).step
    (.record desk (.update items none known (named "b")) (id 1) 0)

theorem relabelled_reached (known : Row) : Reaches Fresh (start engine []) (relabelled known) := by
  refine .step _ (.step _ .refl trivial) ?_
  exact ⟨List.not_mem_nil, rfl⟩

/-- The row as it is shown. -/
def relabelledRow : DisplayRow := ⟨sized 1 "b", .updated, .fetched 0, some (id 1), ["name"]⟩

/-- The row is taken out as it is shown. -/
def removal : Edit := .delete items none (sized 1 "b")

/-- All of the row is known, and the update becomes the deletion. -/
theorem followUp_lands_relabelled :
    ((relabelled (sized 1 "a")).engine.page desk items [sized 1 "a"]).1 = ⟨[relabelledRow], []⟩ ∧
      ((relabelled (sized 1 "a")).engine.ledger.record desk removal (id 2) 0).answer =
        .ok (.replaced (id 1)) := by
  have page : ((relabelled (sized 1 "a")).engine.page desk items [sized 1 "a"]).1 =
      ⟨[relabelledRow], []⟩ := rfl
  have shown : relabelledRow ∈
      ((relabelled (sized 1 "a")).engine.page desk items [sized 1 "a"]).1.rows ++
        ((relabelled (sized 1 "a")).engine.page desk items [sized 1 "a"]).1.hidden := by
    rw [page]
    exact List.mem_singleton_self _
  have fresh : (relabelled (sized 1 "a")).Fresh (.record desk removal (id 2) 0) := ⟨by decide, rfl⟩
  have made : removal.MadeOf items relabelledRow.values := ⟨nofun, rfl, rfl, rfl⟩
  refine ⟨page, ?_⟩
  obtain ⟨before, c, after, split, -, -, -, -, -, accepted⟩ := followUp_lands engine_opened
    (relabelled_reached (sized 1 "a")) fresh rfl shown rfl made
  refine ((accepted rfl rfl (by decide)).1 ?_).1
  cases before with
  | nil =>
    obtain ⟨rfl, -⟩ := List.cons.inj split
    exact ⟨rfl, fun other mem => absurd mem List.not_mem_nil⟩
  | cons first rest =>
    have none : [] = rest ++ c :: after := (List.cons.inj split).2
    simp at none

/-- If only the identifier of the row was known, the row is shown in the same way, but to take it out as
it is shown is a second change. -/
example : ((relabelled (key 1)).engine.page desk items [sized 1 "a"]).1 = ⟨[relabelledRow], []⟩ ∧
    ((relabelled (key 1)).engine.ledger.record desk removal (id 2) 0).answer =
      .ok (.appended (id 2)) := ⟨rfl, rfl⟩

/-- The second item gets a third key, and then the first one gets the second key. -/
def crossed : History :=
  ((((start engine []).step (.activate desk)).step (.setKeyColumns items ["id"])).step
    (.record desk (.update items none (item 2 "b") (key 3)) (id 1) 0)).step
    (.record desk (.update items none (item 1 "a") (key 2)) (id 2) 0)

/-- The second key points at the row that had it before the row that is shown with it, so that an edit of
the one goes into the change of the other. -/
theorem followUp_crossed :
    Reaches Fresh (start engine []) crossed ∧ crossed.engine.ledger.isActive desk = true ∧
      crossed.engine.ledger.isFrozen desk = false ∧
      (crossed.engine.page desk items [item 1 "a", item 2 "b"]).1 =
        ⟨[⟨item 2 "a", .updated, .fetched 0, some (id 2), ["id"]⟩,
          ⟨item 3 "b", .updated, .fetched 1, some (id 1), ["id"]⟩], []⟩ ∧
      (crossed.engine.ledger.record desk (.update items none (item 2 "a") (named "c")) (id 3) 0).answer =
        .ok (.merged (id 1)) := by
  refine ⟨.step _ (.step _ (.step _ (.step _ .refl trivial) trivial) ?_) ?_, rfl, rfl, rfl, rfl⟩
  · exact ⟨List.not_mem_nil, rfl⟩
  · exact ⟨by decide, rfl⟩

end Sample

end DraftLedger
