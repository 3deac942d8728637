import DraftLedger.Proofs.Conservation

/-!
# Rows that a statement would affect

The condition of a statement selects every row that agrees with it, but on a page a change is taken
by one fetched row.  So a fetched row that a staged update or deletion affects is shown as pending,
unless a row before it has taken the change.

* `Change.Affects` : the rows that the statement of a change selects.
* `Page.Answered`, `Page.overlayFetched_answered` : a row is pending or the change is gone, by
  induction on the rows.
* `Page.overlay_affected` : affected rows on a page.
-/

set_option autoImplicit false

namespace DraftLedger

/-- The change is an update or a deletion, and its address matches the row. -/
def Change.Affects (c : Change) (row : Row) : Prop :=
  c.kind ≠ .insert ∧ ∃ address, c.address? = some address ∧ address.matchesRow row = true

theorem Change.fitsFetched_iff_affects {c : Change} (written : c.kind ≠ .insert) (row : Row) :
    c.fitsFetched row = true ↔ c.Affects row := by
  unfold fitsFetched Affects address?
  cases c.usableKey? with
  | some key => simp [written]
  | none => cases (c.knownImage.filter fun image => !image.isEmpty) <;> simp [written]

theorem DisplayRow.isPending_changed (i : Nat) (row : Row) (c : Change) :
    (changed i row c).isPending = true := by
  rw [isPending, changed_state]
  cases c.kind <;> rfl

namespace Page

variable {display : DeleteDisplay} {changes left : List Change} {fetched rows : List Row}
  {c : Change} {row : Row} {i : Nat}

/-- The rows of a page, with those that are kept out of sight. -/
def all (p : Page) : List DisplayRow := p.rows ++ p.hidden

theorem length_overlayFetched (index : Nat) (left : List Change) (rows : List Row) :
    (overlayFetched index left rows).1.length = rows.length := by
  have length := congrArg List.length (indices_overlayFetched index left rows)
  simpa only [List.length_map, List.length_range'] using length

/-- Of the fetched rows from an index on, the one with this position is shown as pending, or one before
it that the change fits is shown with the change. -/
def Answered (c : Change) (index : Nat) (rows : List Row) (shown : List DisplayRow) (i : Nat) : Prop :=
  (∃ r, shown[i]? = some r ∧ r.isPending = true) ∨
    ∃ j row, j < i ∧ rows[j]? = some row ∧ c.fitsFetched row = true ∧
      shown[j]? = some (DisplayRow.changed (index + j) row c)

theorem Answered.behind {index : Nat} {shown : List DisplayRow}
    (h : Answered c (index + 1) rows shown i) (first : Row) (r : DisplayRow) :
    Answered c index (first :: rows) (r :: shown) (i + 1) := by
  rcases h with pending | ⟨j, row, before, found, fits, with_⟩
  · exact .inl pending
  · refine .inr ⟨j + 1, row, by omega, found, fits, ?_⟩
    rw [List.getElem?_cons_succ, with_, Nat.add_right_comm, Nat.add_assoc]

theorem overlayFetched_answered {index : Nat} (found : rows[i]? = some row) (hc : c ∈ left)
    (fits : c.fitsFetched row = true) :
    Answered c index rows (overlayFetched index left rows).1 i := by
  induction rows generalizing index left i with
  | nil => cases found
  | cons first rest ih =>
    cases taken : Change.taken? left first with
    | none =>
      rw [overlayFetched, takeFirst_of_none taken]
      cases i with
      | zero =>
        cases found
        have misfit := Change.taken?_eq_none.1 taken c hc
        rw [fits] at misfit
        cases misfit
      | succ i => exact (ih found hc).behind first _
    | some d =>
      obtain ⟨fits', before, after, rfl, passed⟩ := Change.taken?_eq_some.1 taken
      rw [overlayFetched, takeFirst_of_fit passed fits']
      cases i with
      | zero => exact .inl ⟨_, rfl, DisplayRow.isPending_changed index first d⟩
      | succ i =>
        by_cases same : c = d
        · subst same
          exact .inr ⟨0, first, by omega, rfl, fits', rfl⟩
        · have stays : c ∈ before ++ after := by
            rcases List.mem_append.1 hc with hc | hc
            · exact List.mem_append_left after hc
            · exact List.mem_append_right before (List.mem_of_ne_of_mem same hc)
          exact (ih found stays).behind first _

theorem index?_of_getElem? {r : DisplayRow}
    (h : (overlayFetched 0 left rows).1[i]? = some r) : r.index? = some i := by
  have at_ := congrArg (fun indices => indices[i]?) (indices_overlayFetched 0 left rows)
  have bound := (List.getElem?_eq_some_iff.1 h).1
  rw [length_overlayFetched] at bound
  simpa [h, bound] using at_

theorem mem_overlay_of_index? {r : DisplayRow}
    (hr : r ∈ (overlay display changes fetched).all)
    (index : r.index? = some i) : (overlayFetched 0 changes fetched).1[i]? = some r := by
  have perm := perm_arrange (isHidden display) (overlayFetched 0 changes fetched).1
    (overlayFetched 0 changes fetched).2
  rcases List.mem_append.1 (perm.mem_iff.1 hr) with hr | new
  · obtain ⟨j, found⟩ := List.getElem?_of_mem hr
    obtain rfl : j = i := Option.some.inj ((index?_of_getElem? found).symm.trans index)
    exact found
  · obtain ⟨c, -, rfl⟩ := List.mem_map.1 new
    cases index

theorem mem_overlay {r : DisplayRow} (h : (overlayFetched 0 changes fetched).1[i]? = some r) :
    r ∈ (overlay display changes fetched).all :=
  (perm_arrange (isHidden display) _ _).mem_iff.2 (List.mem_append_left _ (List.mem_of_getElem? h))

/-- A fetched row that a staged update or deletion affects is not shown as clean, unless a row before
it, affected as well, is shown with the change. -/
theorem overlay_affected (display : DeleteDisplay) (found : fetched[i]? = some row) (hc : c ∈ changes)
    (affects : c.Affects row) :
    (∃ r ∈ (overlay display changes fetched).all, r.index? = some i) ∧
    ((∀ r ∈ (overlay display changes fetched).all, r.index? = some i → r.state ≠ .clean) ∨
      ∃ j row', j < i ∧ fetched[j]? = some row' ∧ c.Affects row' ∧
        ∃ r ∈ (overlay display changes fetched).all,
          r.index? = some j ∧ r.changeId = some c.id ∧ r.state = c.kind.shown) := by
  have written := affects.1
  have answered : Answered c 0 fetched (overlayFetched 0 changes fetched).1 i :=
    overlayFetched_answered found hc ((Change.fitsFetched_iff_affects written row).2 affects)
  constructor
  · have bound : i < (overlayFetched 0 changes fetched).1.length := by
      rw [length_overlayFetched]
      exact (List.getElem?_eq_some_iff.1 found).1
    have at_ := List.getElem?_eq_getElem bound
    exact ⟨_, mem_overlay at_, index?_of_getElem? at_⟩
  rcases answered with ⟨r, at_, pending⟩ | ⟨j, row', before, found', fits', at_⟩
  · refine .inl fun r' hr' index => ?_
    obtain rfl := Option.some.inj (at_.symm.trans (mem_overlay_of_index? hr' index))
    simpa [DisplayRow.isPending] using pending
  · exact .inr ⟨j, row', before, found', (Change.fitsFetched_iff_affects written row').1 fits', _,
      mem_overlay at_, index?_of_getElem? at_, DisplayRow.changed_changeId ..,
      DisplayRow.changed_state ..⟩

end Page

namespace Sample

/-- A row without a key is to go. -/
def withdrawal : Change := (Edit.delete items none (named "a")).toChange (id 1) ⟨5, 0⟩

/-- Two rows are equal to it. -/
def namesakes : List Row := [named "a", named "b", named "a"]

theorem withdrawal_affects : withdrawal.Affects (named "a") :=
  ⟨by decide, .fullRow (named "a"), rfl, by decide⟩

/-- The first one is to go. -/
theorem overlay_affected_namesakes :
    namesakes[0]? = some (named "a") ∧ withdrawal ∈ [withdrawal] ∧ withdrawal.Affects (named "a") ∧
      ∀ r ∈ (Page.overlay .hidden [withdrawal] namesakes).all,
        r.index? = some 0 → r.state ≠ .clean := by
  have found : namesakes[0]? = some (named "a") := rfl
  have staged : withdrawal ∈ [withdrawal] := List.mem_singleton.2 rfl
  obtain ⟨-, pending | ⟨j, -, before, -⟩⟩ :=
    Page.overlay_affected .hidden found staged withdrawal_affects
  · exact ⟨found, staged, withdrawal_affects, pending⟩
  · omega

/-- The second one is affected as well, and is shown as clean. -/
theorem namesake_clean :
    namesakes[2]? = some (named "a") ∧ withdrawal ∈ [withdrawal] ∧ withdrawal.Affects (named "a") ∧
      ¬ ∀ r ∈ (Page.overlay .hidden [withdrawal] namesakes).all,
        r.index? = some 2 → r.state ≠ .clean := by
  refine ⟨rfl, List.mem_singleton.2 rfl, withdrawal_affects, fun never => ?_⟩
  have mem : DisplayRow.clean 2 (named "a") ∈ (Page.overlay .hidden [withdrawal] namesakes).all := by
    have rows : (Page.overlay .hidden [withdrawal] namesakes).rows =
        [DisplayRow.clean 1 (named "b"), DisplayRow.clean 2 (named "a")] := rfl
    rw [Page.all, rows]
    exact List.mem_append_left _ (List.mem_cons_of_mem _ List.mem_cons_self)
  exact never _ mem rfl rfl

end Sample

end DraftLedger
