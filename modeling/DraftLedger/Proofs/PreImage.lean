import DraftLedger.Proofs.Merging
import DraftLedger.Proofs.Sample

/-!
# The row under a change

Updates of one row, and perhaps its deletion at the end, are staged one after another, each made on the
row that is displayed then. They become one change. Its old values are of the row before all of them,
and its new values make of that row the one that is displayed.

* `Row.fill` : old values that a change does not know yet.
* `RowEdits` : edits of a row, each made on what the ones before it display.
* `Change.StandsFor` : what one update after another keeps.
* `layAll`, `stageAll` : new values laid over a row, and changes staged, one after another.
* `toldBefore` : what edits tell of a column as it was before them all.
* `RowEdits.stageAll_sums`, `stageAll_rowEdits` : the change that is left.
-/

set_option autoImplicit false

namespace DraftLedger

/-! ## Old values -/

/-- Old values with those of further columns, unless a column has a new value. -/
def Row.fill (old new incoming : Row) : Row :=
  old.overlay (incoming.filter fun column _ => !(old.contains column || new.contains column))

theorem Change.withOldValues_oldValues {c : Change} {old new : Row} (hold : c.oldValues = some old)
    (hnew : c.newValues = some new) (incoming : Row) :
    (c.withOldValues (some incoming)).oldValues = some (old.fill new incoming) := by
  simp only [withOldValues, hold, hnew, Option.getD_some, Row.fill]

section Fill

variable {row old new incoming : Row}

theorem Row.get?_fill (old new incoming : Row) (column : String) :
    (old.fill new incoming).get? column =
      (old.get? column).or (if (new.get? column).isSome then none else incoming.get? column) := by
  rw [fill, Dict.get?_overlay, Dict.get?_filter]
  unfold Dict.contains
  cases old.get? column <;> cases new.get? column <;> cases incoming.get? column <;> rfl

theorem Change.get?_withOldValues (c : Change) (incoming : Option Row) (column : String) :
    ((c.withOldValues incoming).oldValues.getD Dict.empty).get? column =
      ((c.oldValues.getD Dict.empty).get? column).or
        (if (c.newValues.getD Dict.empty).contains column then none
          else (incoming.getD Dict.empty).get? column) := by
  cases incoming with
  | none => simp [withOldValues, Dict.get?_empty]
  | some values => exact Row.get?_fill _ (c.newValues.getD Dict.empty) values column

theorem Row.covers_fill (captured : row.covers old = true)
    (known : Row.covers (row.overlay new) incoming = true) :
    row.covers (old.fill new incoming) = true := by
  apply covers_iff.2
  intro column v filled
  rw [get?_fill] at filled
  cases before : old.get? column with
  | some w =>
    obtain rfl : w = v := by simpa [before] using filled
    exact covers_iff.1 captured column w before
  | none =>
    cases set : new.get? column with
    | some w => simp [before, set] at filled
    | none =>
      have displayed := covers_iff.1 known column v (by simpa [before, set] using filled)
      obtain ⟨cell, shown, same⟩ := holds_iff.1 displayed
      rw [Dict.get?_overlay, set, Option.none_or] at shown
      exact holds_iff.2 ⟨cell, shown, same⟩

theorem Row.fill_beq (whole : (old == row) = true)
    (displayed : (incoming == Dict.overlay row new) = true) :
    (old.fill new incoming == row) = true := by
  apply Dict.beq_iff.2
  intro column
  have same := Dict.beq_iff.1 whole column
  have now := Dict.beq_iff.1 displayed column
  rw [Dict.get?_overlay] at now
  rw [get?_fill]
  cases before : old.get? column with
  | some w => simpa [before] using same
  | none =>
    have missing : row.get? column = none := by
      rw [before] at same
      cases found : row.get? column with
      | none => rfl
      | some w => simp [found] at same
    cases set : new.get? column with
    | some w => simp [missing]
    | none => simpa [set, missing] using now

end Fill

/-! ## Edits of one row -/

/-- The cells of the row in the columns of a key. -/
def Row.keyIn (row key : Row) : Row := key.mapValues fun column value => (row.get? column).getD value

/-- Edits point at a row by its original key or by the key that it displays; those of a row without a
key, by all that it displays. -/
inductive Edit.PointsAt (e : Edit) (shown : Row) : Option Row → Prop
  | byKey {own key : Row} (keyed : e.usableKey? = some key)
      (same : (key == own) = true ∨ (key == shown.keyIn own) = true) : PointsAt e shown (some own)
  | byRow (keyless : e.usableKey? = none) (whole : (e.knownValues == shown) = true) :
      PointsAt e shown none

/-- Updates of a row, and perhaps its deletion at the end, in the order in which they are made. Each is
made with old values that are displayed then. -/
inductive RowEdits (table : Table) (original : Option Row) : Row → List Change → Prop
  | nil (shown : Row) : RowEdits table original shown []
  | update {shown old new : Row} {key : Option Row} {rest : List Change} (id : ChangeId)
      (stamp : Stamp) (points : (Edit.update table key old new).PointsAt shown original)
      (known : shown.covers old = true) (further : RowEdits table original (shown.overlay new) rest) :
      RowEdits table original shown ((Edit.update table key old new).toChange id stamp :: rest)
  | delete {shown old : Row} {key : Option Row} (id : ChangeId) (stamp : Stamp)
      (points : (Edit.delete table key old).PointsAt shown original)
      (known : shown.covers old = true) :
      RowEdits table original shown [(Edit.delete table key old).toChange id stamp]

/-- The new values of changes laid over a row, the last of them on top. -/
def layAll (row : Row) (edits : List Change) : Row :=
  edits.foldl (fun row e => row.overlay (e.newValues.getD Dict.empty)) row

theorem overlay_layAll (row new : Row) (edits : List Change) :
    row.overlay (layAll new edits) = layAll (row.overlay new) edits := by
  induction edits generalizing new with
  | nil => rfl
  | cons e rest ih =>
    show row.overlay (layAll (new.overlay _) rest) = layAll ((row.overlay new).overlay _) rest
    rw [ih, Dict.overlay_assoc]

/-- What a column held before all of the edits: the old value that the first of them to have one is made
with, unless an edit before that one sets the column. -/
def toldBefore (column : String) : List Change → Option Cell
  | [] => none
  | e :: rest =>
    ((e.oldValues.getD Dict.empty).get? column).or
      (if (e.newValues.getD Dict.empty).contains column then none else toldBefore column rest)

/-- Changes are staged one after another, up to one that is refused. -/
def stageAll (changes : List Change) : List Change → Except Error (List Change)
  | [] => .ok changes
  | c :: rest => (stage changes c).bind fun r => stageAll r.1 rest

section Pointing

variable {e : Edit} {original : Option Row} {row shown : Row} {id : ChangeId} {stamp : Stamp}

theorem Row.keyIn_beq {own : Row} (keeps : row.KeepsKey own) : (row.keyIn own == own) = true := by
  apply Dict.beq_iff.2
  intro column
  rw [keyIn, Dict.get?_mapValues]
  cases hw : own.get? column with
  | none => rfl
  | some w =>
    cases hv : row.get? column with
    | none => simp
    | some v => simpa using keeps column v w hv hw

theorem Edit.PointsAt.usableKey?_beq (points : e.PointsAt row original)
    (keeps : ∀ own ∈ original, row.KeepsKey own) : (e.usableKey? == original) = true := by
  cases points with
  | byRow keyless whole =>
    rw [keyless]
    rfl
  | @byKey own key keyed same =>
    rw [keyed]
    rcases same with same | same
    · exact same
    · exact BEq.trans (α := Row) same (Row.keyIn_beq (keeps own rfl))

theorem Edit.knownImage_toChange (notInsert : e.kind ≠ .insert) :
    (e.toChange id stamp).knownImage = some e.knownValues := by
  cases e with
  | insert => exact absurd rfl notInsert
  | update => rfl
  | delete => rfl

/-- How the change that is made of an edit points at its row. -/
def Edit.pointer (e : Edit) : Address :=
  match e.usableKey? with
  | some key => .key key
  | none => .fullRow e.knownValues

theorem Edit.PointsAt.address? (points : e.PointsAt shown original)
    (nonempty : shown.isEmpty = false) (notInsert : e.kind ≠ .insert) (id : ChangeId)
    (stamp : Stamp) : (e.toChange id stamp).address? = some e.pointer := by
  have usable : (e.toChange id stamp).usableKey? = e.usableKey? := toChange_usableKey? ..
  unfold pointer
  cases points with
  | byKey keyed same =>
    rw [keyed]
    exact Change.address?_of_key (usable.trans keyed)
  | byRow keyless whole =>
    rw [keyless]
    exact Change.address?_of_image (usable.trans keyless) (knownImage_toChange notInsert)
      ((Dict.isEmpty_of_beq whole).trans nonempty)

end Pointing

/-! ## The change that stands for the edits -/

/-- An update that stands for the edits of a row so far: its old values are of the original row, all of
it if the row has no key, and its new values make of that row the one that is displayed. -/
structure Change.StandsFor (c : Change) (table : Table) (original : Option Row) (row new : Row) :
    Prop where
  table : c.table = table
  kind : c.kind = .update
  key : (c.usableKey? == original) = true
  new : c.newValues = some new
  old : ∃ old, c.oldValues = some old ∧ row.covers old = true ∧
    (original = none → (old == row) = true)

namespace Change.StandsFor

variable {c : Change} {table : Table} {original key : Option Row} {row new old new' : Row} {e : Edit}
  {id : ChangeId} {stamp : Stamp} {address : Address}

theorem first (points : (Edit.update table key old new).PointsAt row original)
    (keeps : ∀ own ∈ original, row.KeepsKey own) (known : row.covers old = true) (id : ChangeId)
    (stamp : Stamp) :
    ((Edit.update table key old new).toChange id stamp).StandsFor table original row new where
  table := rfl
  kind := rfl
  key := by
    rw [Edit.toChange_usableKey?]
    exact points.usableKey?_beq keeps
  new := rfl
  old := by
    refine ⟨old, rfl, known, ?_⟩
    rintro rfl
    cases points with
    | byRow keyless whole => exact whole

theorem getD_newValues (h : c.StandsFor table original row new) :
    c.newValues.getD Dict.empty = new := by
  rw [h.new, Option.getD_some]

theorem keyIn_beq {own kept now : Row} (h : c.StandsFor table (some own) row new)
    (keeps : row.KeepsKey own) (stored : c.usableKey? = some kept)
    (current : c.currentKey? = some now) :
    (Row.keyIn (row.overlay new) own == now) = true := by
  have equal : (kept == own) = true := by
    have key := h.key
    rw [stored] at key
    exact key
  apply Dict.beq_iff.2
  intro column
  have same := Dict.beq_iff.1 equal column
  rw [Row.keyIn, Dict.get?_mapValues, get?_currentKey? stored current, h.new, Option.getD_some,
    Dict.get?_overlay]
  cases hw : own.get? column with
  | none =>
    cases hk : kept.get? column with
    | none => rfl
    | some k => simp [hw, hk] at same
  | some w =>
    cases hk : kept.get? column with
    | none => simp [hw, hk] at same
    | some k =>
      have back : (w == k) = true := BEq.symm (by simpa [hw, hk] using same)
      cases hn : new.get? column with
      | some n => simp
      | none =>
        cases hv : row.get? column with
        | none => simpa using back
        | some v => simpa using BEq.trans (keeps column v w hv hw) back

theorem receives (h : c.StandsFor table original row new) (nonempty : row.isEmpty = false)
    (keeps : ∀ own ∈ original, row.KeepsKey own)
    (points : e.PointsAt (row.overlay new) original) : c.Receives table e.pointer := by
  have key := h.key
  refine ⟨h.table, ?_⟩
  unfold Edit.pointer
  cases points with
  | @byKey own key' keyed same =>
    rw [keyed]
    cases stored : c.usableKey? with
    | none => simp [stored] at key
    | some kept =>
      obtain ⟨now, current, -⟩ := currentKey?_isSome stored
      apply (isTargetedBy_key_iff stored).2
      rcases same with same | same
      · have equal : (kept == own) = true := by simpa [stored] using key
        exact .inl (BEq.trans same (BEq.symm equal))
      · exact .inr ⟨now, current, BEq.trans same (h.keyIn_beq (keeps own rfl) stored current)⟩
  | byRow keyless displayed =>
    rw [keyless]
    obtain ⟨old, captured, -, whole⟩ := h.old
    have given : old.isEmpty = false := (Dict.isEmpty_of_beq (whole rfl)).trans nonempty
    have stored : c.usableKey? = none := by
      cases stored : c.usableKey? with
      | none => rfl
      | some kept => simp [stored] at key
    have image : c.knownImage = some old := by simp only [knownImage, h.kind, captured]
    have now : c.currentImage = some (old.overlay new) := by
      simp only [currentImage, h.kind, captured, h.new, Option.getD_some]
    apply (isTargetedBy_row_iff_same stored image given).2
    refine .inr ⟨_, now, Dict.isEmpty_overlay given new, ?_⟩
    exact BEq.trans displayed (Dict.overlay_beq (BEq.symm (whole rfl)) new)

theorem fill (h : c.StandsFor table original row new)
    (points : e.PointsAt (row.overlay new) original)
    (known : Row.covers (row.overlay new) e.knownValues = true) :
    ∃ old, (c.withOldValues (some e.knownValues)).oldValues = some old ∧ row.covers old = true ∧
      (original = none → (old == row) = true) := by
  obtain ⟨old, captured, covered, whole⟩ := h.old
  refine ⟨_, withOldValues_oldValues captured h.new _, Row.covers_fill covered known, ?_⟩
  rintro rfl
  cases points with
  | byRow keyless displayed => exact Row.fill_beq (whole rfl) displayed

theorem update (h : c.StandsFor table original row new)
    (points : (Edit.update table key old new').PointsAt (row.overlay new) original)
    (known : Row.covers (row.overlay new) old = true) (id : ChangeId) (stamp : Stamp) :
    (c.updateAfter ((Edit.update table key old new').toChange id stamp)).StandsFor table original row
      (new.overlay new') where
  table := by simp [h.table]
  kind := by simp [h.kind]
  key := by
    rw [usableKey?, updateAfter_primaryKey]
    exact h.key
  new := by simp [updateAfter, withNewValues, Edit.toChange, h.new]
  old := by
    rw [updateAfter_oldValues]
    exact h.fill points known

end Change.StandsFor

/-! ## One change after another -/

/-- What is left of edits of a row that come after the new values: old values of the row, and either all
new values or, of a deletion, none. -/
structure Change.Sums (c : Change) (row new : Row) (edits : List Change) : Prop where
  old : ∃ old, c.oldValues = some old ∧ row.covers old = true
  updated : (∀ e ∈ edits, e.kind = .update) →
    c.kind = .update ∧ c.newValues = some (layAll new edits)
  deleted : (∃ e ∈ edits, e.kind = .delete) → c.kind = .delete ∧ c.newValues = none

section Run

variable {c e : Change} {table : Table} {original : Option Row} {row shown new : Row}
  {changes edits : List Change} {address : Address}

theorem Change.Sums.cons (h : c.Sums row (new.overlay (e.newValues.getD Dict.empty)) edits)
    (update : e.kind = .update) : c.Sums row new (e :: edits) where
  old := h.old
  updated all := h.updated fun d hd => all d (List.mem_cons_of_mem _ hd)
  deleted := by
    rintro ⟨d, hd, deletion⟩
    rcases List.mem_cons.1 hd with rfl | hd
    · rw [update] at deletion
      cases deletion
    · exact h.deleted ⟨d, hd, deletion⟩

theorem Change.StandsFor.sums (h : c.StandsFor table original row new) : c.Sums row new [] where
  old := by
    obtain ⟨old, captured, covered, -⟩ := h.old
    exact ⟨old, captured, covered⟩
  updated _ := ⟨h.kind, h.new⟩
  deleted := by
    rintro ⟨e, he, -⟩
    cases he

theorem Change.sums_deletion {old : Row} (captured : c.oldValues = some old)
    (covered : row.covers old = true) (deletion : c.kind = .delete) (noNew : c.newValues = none)
    (last : e.kind = .delete) : c.Sums row new [e] where
  old := ⟨old, captured, covered⟩
  updated all := by
    have update := all e List.mem_cons_self
    rw [last] at update
    cases update
  deleted _ := ⟨deletion, noNew⟩

theorem Change.takeIn_update (existing : c.kind = .update) (incoming : e.kind = .update) :
    c.takeIn e = .ok (some (c.updateAfter e), .merged c.id) := by
  simp only [takeIn, existing, incoming]
  rfl

theorem Change.takeIn_delete (existing : c.kind = .update) (incoming : e.kind = .delete) :
    c.takeIn e = .ok (some (c.deleteAfter e), .replaced c.id) := by
  simp only [takeIn, existing, incoming]
  rfl

/-- None of the changes would take in one of the edits. -/
def NoneReceives (changes edits : List Change) : Prop :=
  ∀ e ∈ edits, ∀ address ∈ e.address?, ∀ c ∈ changes, ¬ c.Receives e.table address

theorem stageAll_last {taken : Change} {outcome : Outcome} (alone : NoneReceives changes (e :: edits))
    (notInsert : e.kind ≠ .insert) (found : e.address? = some address)
    (receives : c.Receives e.table address) (takes : c.takeIn e = .ok (some taken, outcome)) :
    stageAll (changes ++ [c]) (e :: edits) = stageAll (changes ++ [taken]) edits := by
  have passed := alone e List.mem_cons_self address found
  rw [stageAll, stage_of_ne_insert found notInsert, stageAt_of_receives passed receives, takes]
  show stageAll (changes ++ [taken] ++ []) edits = _
  rw [List.append_nil]

theorem stageAll_first (alone : NoneReceives changes (e :: edits)) (notInsert : e.kind ≠ .insert)
    (found : e.address? = some address) :
    stageAll changes (e :: edits) = stageAll (changes ++ [e]) edits := by
  have passed := alone e List.mem_cons_self address found
  rw [stageAll, stage_of_ne_insert found notInsert, stageAt_of_not_receives passed]
  rfl

theorem toldBefore_cons (c : Change) (column : String) (rest : List Change) :
    (((c.withOldValues e.oldValues).oldValues.getD Dict.empty).get? column).or
        (if ((c.newValues.getD Dict.empty).overlay (e.newValues.getD Dict.empty)).contains column
          then none else toldBefore column rest) =
      ((c.oldValues.getD Dict.empty).get? column).or
        (if (c.newValues.getD Dict.empty).contains column then none
          else toldBefore column (e :: rest)) := by
  rw [Change.get?_withOldValues, toldBefore]
  unfold Dict.contains
  rw [Dict.get?_overlay]
  cases (c.oldValues.getD Dict.empty).get? column <;>
    cases (c.newValues.getD Dict.empty).get? column <;>
    cases (e.newValues.getD Dict.empty).get? column <;> simp

theorem NoneReceives.tail (alone : NoneReceives changes (e :: edits)) : NoneReceives changes edits :=
  fun d hd => alone d (List.mem_cons_of_mem e hd)

theorem RowEdits.stageAll_standsFor (h : RowEdits table original shown edits)
    (nonempty : row.isEmpty = false) (keeps : ∀ own ∈ original, row.KeepsKey own)
    (alone : NoneReceives changes edits) (displayed : shown = row.overlay new)
    (stands : c.StandsFor table original row new) :
    ∃ c', stageAll (changes ++ [c]) edits = .ok (changes ++ [c']) ∧ c'.id = c.id ∧
      c'.timestamp = c.timestamp ∧ c'.Sums row new edits ∧
      ∀ column, (c'.oldValues.getD Dict.empty).get? column =
        ((c.oldValues.getD Dict.empty).get? column).or
          (if new.contains column then none else toldBefore column edits) := by
  have visible : Dict.isEmpty (row.overlay new) = false := Dict.isEmpty_overlay nonempty new
  induction h generalizing c new with
  | nil => exact ⟨c, rfl, rfl, rfl, stands.sums, fun column => by simp [toldBefore]⟩
  | @update shown old new' key rest id stamp points known further ih =>
    subst displayed
    have found := points.address? visible (by simp) id stamp
    have takes := Change.takeIn_update (e := (Edit.update table key old new').toChange id stamp)
      stands.kind rfl
    obtain ⟨c', staged, same, made, sums, told⟩ := ih alone.tail (Dict.overlay_assoc ..)
      (stands.update points known id stamp) (Dict.isEmpty_overlay nonempty _)
    refine ⟨c', ?_, ?_, ?_, sums.cons rfl, fun column => ?_⟩
    · rw [stageAll_last alone (by simp) found (stands.receives nonempty keeps points) takes, staged]
    · rw [same, Change.updateAfter_id]
    · rw [made]
      simp [Change.updateAfter]
    · rw [told, Change.updateAfter_oldValues, ← stands.getD_newValues, ← toldBefore_cons]
      rfl
  | @delete shown old key id stamp points known =>
    subst displayed
    have found := points.address? visible (by simp) id stamp
    have takes := Change.takeIn_delete (e := (Edit.delete table key old).toChange id stamp)
      stands.kind rfl
    obtain ⟨filled, captured, covered, -⟩ := stands.fill points known
    refine ⟨_, stageAll_last alone (by simp) found (stands.receives nonempty keeps points) takes,
      ?_, ?_, Change.sums_deletion captured covered rfl rfl rfl, fun column => ?_⟩
    · exact Change.deleteAfter_id ..
    · simp [Change.deleteAfter]
    · rw [← stands.getD_newValues, ← toldBefore_cons, Change.deleteAfter_oldValues]
      simp [toldBefore]

end Run

/-- Edits of a row become one change. What it tells of the row before them is, column by column, what
they tell of it. -/
theorem RowEdits.stageAll_sums {table : Table} {original : Option Row} {row : Row} {first : Change}
    {rest changes : List Change} (nonempty : row.isEmpty = false)
    (keeps : ∀ own ∈ original, row.KeepsKey own)
    (edits : RowEdits table original row (first :: rest))
    (alone : NoneReceives changes (first :: rest)) :
    ∃ c, stageAll changes (first :: rest) = .ok (changes ++ [c]) ∧ c.id = first.id ∧
      c.timestamp = first.timestamp ∧ c.Sums row Dict.empty (first :: rest) ∧
      ∀ column, (c.oldValues.getD Dict.empty).get? column = toldBefore column (first :: rest) := by
  cases edits with
  | @update _ old new key _ id stamp points known further =>
    have stands := Change.StandsFor.first points keeps known id stamp
    obtain ⟨c, staged, same, made, sums, told⟩ :=
      further.stageAll_standsFor nonempty keeps alone.tail rfl stands
    refine ⟨c, ?_, same, made, Change.Sums.cons ?_ rfl, told⟩
    · rw [stageAll_first alone (by simp) (points.address? nonempty (by simp) id stamp), staged]
    · have only : Dict.overlay Dict.empty new = new := Dict.empty_overlay new
      show c.Sums row (Dict.overlay Dict.empty new) rest
      rw [only]
      exact sums
  | @delete _ old key id stamp points known =>
    refine ⟨_, stageAll_first alone (by simp) (points.address? nonempty (by simp) id stamp), rfl, rfl,
      Change.sums_deletion rfl known rfl rfl rfl, fun column => ?_⟩
    simp [toldBefore]

/-- Edits of a row become one change, with the identifier and the time of the first of them, where no
other change would take in one of them. Its old values are of the row before them all. Without a
deletion, its new values are theirs, the last one on top, and make of that row what is displayed after
them; a deletion has none. -/
theorem stageAll_rowEdits {table : Table} {original : Option Row} {row : Row} {first : Change}
    {rest changes : List Change} (nonempty : row.isEmpty = false)
    (keeps : ∀ own ∈ original, row.KeepsKey own)
    (edits : RowEdits table original row (first :: rest))
    (alone : NoneReceives changes (first :: rest)) :
    (∃ c, stageAll changes (first :: rest) = .ok (changes ++ [c]) ∧ c.id = first.id ∧
      c.timestamp = first.timestamp ∧ c.Sums row Dict.empty (first :: rest)) ∧
      row.overlay (layAll Dict.empty (first :: rest)) = layAll row (first :: rest) := by
  obtain ⟨c, staged, same, made, sums, -⟩ := edits.stageAll_sums nonempty keeps alone
  exact ⟨⟨c, staged, same, made, sums⟩, overlay_layAll row Dict.empty (first :: rest)⟩

namespace Sample

/-- A row gets another key, then by that key another name, and then goes, by the key that it had. -/
def farewell : List Change :=
  [(Edit.update items (some (key 3)) (named "c") (key 4)).toChange (id 3) ⟨5, 2⟩,
    (Edit.update items (some (key 4)) (item 4 "c") (named "d")).toChange (id 4) ⟨5, 3⟩,
    (Edit.delete items (some (key 3)) (item 4 "d")).toChange (id 5) ⟨5, 4⟩]

/-- The deletion that is left knows the first name. -/
theorem stageAll_rowEdits_farewell :
    ∃ c, stageAll [(Edit.insert items (item 2 "b") (some (key 2))).toChange (id 1) ⟨5, 0⟩] farewell =
        .ok [(Edit.insert items (item 2 "b") (some (key 2))).toChange (id 1) ⟨5, 0⟩, c] ∧
      c.id = id 3 ∧ c.kind = .delete ∧ c.newValues = none ∧ c.oldValues = some (named "c") := by
  have renamed : (Edit.update items (some (key 4)) (item 4 "c") (named "d")).PointsAt (item 4 "c")
      (some (key 3)) := .byKey rfl (.inr rfl)
  have edits : RowEdits items (some (key 3)) (item 3 "c") farewell :=
    .update _ _ (.byKey rfl (.inl rfl)) rfl
      (.update _ _ renamed rfl (.delete _ _ (.byKey rfl (.inl rfl)) rfl))
  have keeps : ∀ own ∈ some (key 3), Row.KeepsKey (item 3 "c") own := by
    intro own hown
    obtain rfl := Option.mem_some.1 hown
    exact Row.keepsKey_of_covers rfl
  have alone : NoneReceives [(Edit.insert items (item 2 "b") (some (key 2))).toChange (id 1) ⟨5, 0⟩]
      farewell := by
    intro e he address found c hc
    obtain rfl := List.mem_singleton.1 hc
    simp only [farewell, List.mem_cons, List.not_mem_nil, or_false] at he
    rcases he with rfl | rfl | rfl <;> cases found <;> exact fun receives => nomatch receives.2
  obtain ⟨⟨c, staged, same, -, sums⟩, -⟩ := stageAll_rowEdits rfl keeps edits alone
  obtain ⟨deletion, noNew⟩ :=
    sums.deleted ⟨(Edit.delete items (some (key 3)) (item 4 "d")).toChange (id 5) ⟨5, 4⟩, by simp, rfl⟩
  refine ⟨c, staged, same, deletion, noNew, ?_⟩
  cases staged
  rfl

end Sample

end DraftLedger
