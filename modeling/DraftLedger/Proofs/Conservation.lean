import DraftLedger.Proofs.FollowUp
import Mathlib.Data.List.Perm.Basic
import Mathlib.Data.List.Range

/-!
# A page loses and duplicates nothing

Every fetched row is shown once, and so is every insertion; any other change is shown once at most.
Each fetched row takes a change out of those that are left, and so the invariant is that the changes
that were taken and those that are left are all changes.

* `DisplayRow.index?` : the fetched row that is shown.
* `Page.Pairing`, `Page.overlayFetched_pairing` : rows and what they took, by induction on the rows.
* `Page.Conserves` : a page of fetched rows and changes.
* `Page.overlay_conserves` : both ways to show deletions.
-/

set_option autoImplicit false

namespace DraftLedger

/-- The index of the fetched row that is shown, if it is one. -/
def DisplayRow.index? (r : DisplayRow) : Option Nat :=
  match r.origin with
  | .fetched i | .matchedInsert i => some i
  | .synthetic => none

namespace DisplayRow

variable {c : Change} {row : Row}

theorem index?_changed (i : Nat) (row : Row) (c : Change) : (changed i row c).index? = some i := by
  unfold changed
  cases c.kind <;> rfl

theorem origin_changed (i : Nat) (row : Row) (c : Change) :
    (changed i row c).origin = if c.kind = .insert then .matchedInsert i else .fetched i := by
  unfold changed
  cases c.kind <;> rfl

theorem pendingColumns_changed (i : Nat) (row : Row) (c : Change) :
    (changed i row c).pendingColumns =
      if c.kind = .delete then [] else (c.newValues.getD Dict.empty).keys := by
  unfold changed
  cases c.kind <;> rfl

theorem get?_changed (i : Nat) (row : Row) (c : Change) (column : String) :
    (changed i row c).values.get? column =
      if column ∈ (changed i row c).pendingColumns then (c.newValues.getD Dict.empty).get? column
      else row.get? column := by
  have laid : Dict.get? (row.overlay (c.newValues.getD Dict.empty)) column =
      if column ∈ (c.newValues.getD Dict.empty).keys then (c.newValues.getD Dict.empty).get? column
      else row.get? column := by
    rw [Dict.get?_overlay]
    cases new : (c.newValues.getD Dict.empty).get? column with
    | some v =>
      have key : column ∈ (c.newValues.getD Dict.empty).keys :=
        List.mem_map.2 ⟨(column, v), Dict.mem_entries.2 new, rfl⟩
      simp [key]
    | none =>
      have noKey : column ∉ (c.newValues.getD Dict.empty).keys := by
        intro key
        obtain ⟨⟨k, v⟩, entry, rfl⟩ := List.mem_map.1 key
        rw [Dict.mem_entries.1 entry] at new
        cases new
      simp [noKey]
  unfold changed
  cases c.kind with
  | update => exact laid
  | insert => exact laid
  | delete => rfl

end DisplayRow

/-- A row is the fetched row with an index: as it was fetched, or with the new values of a change on the
pending columns, which are the columns of those values.  A deletion has none. -/
structure DisplayRow.IsFetched (r : DisplayRow) (changes : List Change) (i : Nat) (row : Row) :
    Prop where
  clean : r.state = .clean →
    r.values = row ∧ r.origin = .fetched i ∧ r.changeId = none ∧ r.pendingColumns = []
  pending : r.state ≠ .clean → ∃ c ∈ changes, r.changeId = some c.id ∧ r.state = c.kind.shown ∧
    r.origin = (if c.kind = .insert then .matchedInsert i else .fetched i) ∧
    r.pendingColumns = (if c.kind = .delete then [] else (c.newValues.getD Dict.empty).keys) ∧
    ∀ column, r.values.get? column =
      if column ∈ r.pendingColumns then (c.newValues.getD Dict.empty).get? column
      else row.get? column

theorem DisplayRow.isFetched_clean (changes : List Change) (i : Nat) (row : Row) :
    (clean i row).IsFetched changes i row :=
  ⟨fun _ => ⟨rfl, rfl, rfl, rfl⟩, fun pending => absurd rfl pending⟩

theorem DisplayRow.isFetched_changed {changes : List Change} {c : Change} (hc : c ∈ changes) (i : Nat)
    (row : Row) : (changed i row c).IsFetched changes i row where
  clean none := by
    rw [changed_state] at none
    cases kind : c.kind <;> rw [kind] at none <;> cases none
  pending _ := ⟨c, hc, changed_changeId i row c, changed_state i row c, origin_changed i row c,
    pendingColumns_changed i row c, get?_changed i row c⟩

namespace Page

/-- Rows from an index on are shown, each with the change that it takes, and the other changes are
left. -/
structure Pairing (index : Nat) (changes : List Change) (rows : List Row)
    (shown : List DisplayRow × List Change) : Prop where
  indices : shown.1.map DisplayRow.index? = (List.range' index rows.length).map some
  ids : (shown.1.filterMap (·.changeId) ++ shown.2.map (·.id)).Perm (changes.map (·.id))
  left : shown.2 = changes.filter fun c => ∀ r ∈ shown.1, r.changeId ≠ some c.id
  shows : ∀ r ∈ shown.1, ∃ i row, rows[i]? = some row ∧
    (r = DisplayRow.clean (index + i) row ∨
      ∃ c ∈ changes, r = DisplayRow.changed (index + i) row c)

theorem filter_untaken {before after : List Change} {c : Change} {r : DisplayRow}
    (of : r.changeId = some c.id) (fresh : c.id ∉ (before ++ after).map (·.id))
    (shown : List DisplayRow) :
    ((before ++ after).filter fun d => ∀ r' ∈ shown, r'.changeId ≠ some d.id) =
      (before ++ c :: after).filter fun d => ∀ r' ∈ r :: shown, r'.changeId ≠ some d.id := by
  have out : ¬ ∀ r' ∈ r :: shown, r'.changeId ≠ some c.id := by
    intro untaken
    exact untaken r List.mem_cons_self of
  have same : ∀ d ∈ before ++ after, (decide (∀ r' ∈ shown, r'.changeId ≠ some d.id)) =
      decide (∀ r' ∈ r :: shown, r'.changeId ≠ some d.id) := by
    intro d hd
    have other : r.changeId ≠ some d.id := by
      rw [of]
      intro eq
      exact fresh (List.mem_map.2 ⟨d, hd, (Option.some.inj eq).symm⟩)
    simp [other]
  rw [List.filter_congr same, List.filter_append, List.filter_append,
    List.filter_cons_of_neg (by simpa using out)]

theorem indices_overlayFetched (index : Nat) (left : List Change) (rows : List Row) :
    (overlayFetched index left rows).1.map DisplayRow.index? =
      (List.range' index rows.length).map some := by
  induction rows generalizing index left with
  | nil => rfl
  | cons row rest ih =>
    rw [overlayFetched]
    split
    · rw [List.map_cons, ih]
      rfl
    · rw [List.map_cons, ih, DisplayRow.index?_changed]
      rfl

theorem overlayFetched_pairing (index : Nat) {changes : List Change} (rows : List Row)
    (distinct : (changes.map (·.id)).Nodup) :
    Pairing index changes rows (overlayFetched index changes rows) := by
  induction rows generalizing index changes with
  | nil => exact ⟨rfl, .refl _, by simp [overlayFetched], by simp [overlayFetched]⟩
  | cons row rest ih =>
    have indices := indices_overlayFetched index changes (row :: rest)
    cases taken : Change.taken? changes row with
    | none =>
      obtain ⟨-, ids, left, shows⟩ := ih (index + 1) distinct
      rw [overlayFetched, takeFirst_of_none taken] at indices ⊢
      refine ⟨indices, ids, ?_, ?_⟩
      · rw [left]
        simp [DisplayRow.clean]
      · intro r hr
        rcases List.mem_cons.1 hr with rfl | hr
        · exact ⟨0, row, rfl, .inl rfl⟩
        · obtain ⟨i, row', found, shown⟩ := shows r hr
          exact ⟨i + 1, row', found, by rwa [← Nat.add_assoc, Nat.add_right_comm]⟩
    | some c =>
      obtain ⟨fits, before, after, rfl, passed⟩ := Change.taken?_eq_some.1 taken
      have middle : ((before ++ c :: after).map (·.id)).Perm (c.id :: (before ++ after).map (·.id)) := by
        simp [List.perm_middle]
      obtain ⟨fresh, distinct'⟩ := List.nodup_cons.1 (middle.nodup_iff.1 distinct)
      obtain ⟨-, ids, left, shows⟩ := ih (index + 1) distinct'
      rw [overlayFetched, takeFirst_of_fit passed fits] at indices ⊢
      refine ⟨indices, ?_, ?_, ?_⟩
      · rw [List.filterMap_cons_some (DisplayRow.changed_changeId index row c)]
        exact (ids.cons c.id).trans middle.symm
      · rw [left]
        exact filter_untaken (DisplayRow.changed_changeId index row c) fresh _
      · intro r hr
        rcases List.mem_cons.1 hr with rfl | hr
        · exact ⟨0, row, rfl, .inr ⟨c, by simp, rfl⟩⟩
        · obtain ⟨i, row', found, shown⟩ := shows r hr
          refine ⟨i + 1, row', found, ?_⟩
          rw [← Nat.add_assoc, Nat.add_right_comm]
          rcases shown with clean | ⟨d, hd, eq⟩
          · exact .inl clean
          · exact .inr ⟨d, others_subset hd, eq⟩

/-- A page on which nothing of the changes and the fetched rows is lost or doubled. -/
structure Conserves (changes : List Change) (fetched : List Row) (page : Page) : Prop where
  /-- Each fetched row is shown once. -/
  indices : ((page.rows ++ page.hidden).filterMap DisplayRow.index?).Perm
    (List.range fetched.length)
  ascending : (page.rows.filterMap DisplayRow.index?).Pairwise (· < ·) ∧
    (page.hidden.filterMap DisplayRow.index?).Pairwise (· < ·)
  /-- Behind the fetched rows come the insertions that none of them took, in the order of the changes. -/
  newLast : ∃ old, page.rows = old ++ (changes.filter fun c => c.kind = .insert ∧
      ∀ r ∈ old ++ page.hidden, r.changeId ≠ some c.id).map DisplayRow.synthetic ∧
    ∀ r ∈ old ++ page.hidden, r.index?.isSome = true
  /-- No change is shown twice, and every insertion is shown. -/
  ids : ((page.rows ++ page.hidden).filterMap (·.changeId)).Nodup
  insertions : ∀ c ∈ changes, c.kind = .insert →
    ((page.rows ++ page.hidden).filterMap (·.changeId)).count c.id = 1
  fetchedRows : ∀ r ∈ page.rows ++ page.hidden, ∀ i, r.index? = some i →
    ∃ row, fetched[i]? = some row ∧ r.IsFetched changes i row

/-- The rows of a page: the fetched ones that stay in sight, the new ones, and the hidden ones. -/
def arrange (hides : DisplayRow → Bool) (shown : List DisplayRow) (left : List Change) : Page where
  rows := (shown.filter fun r => !hides r) ++
    (left.filter fun c => c.kind = .insert).map DisplayRow.synthetic
  hidden := shown.filter hides

section Arrange

variable {changes left : List Change} {fetched : List Row} {shown : List DisplayRow}
  (hides : DisplayRow → Bool)

theorem perm_arrange (shown : List DisplayRow) (left : List Change) :
    ((arrange hides shown left).rows ++ (arrange hides shown left).hidden).Perm
      (shown ++ (left.filter fun c => c.kind = .insert).map DisplayRow.synthetic) := by
  have split : (shown.filter hides ++ shown.filter fun r => !hides r).Perm shown :=
    List.filter_append_perm hides shown
  have back := List.perm_append_comm.trans split
  rw [arrange, List.append_assoc]
  refine (List.perm_append_comm.append_left _).trans ?_
  rw [← List.append_assoc]
  exact back.append_right _

theorem filterMap_index?_synthetic (changes : List Change) :
    (changes.map DisplayRow.synthetic).filterMap DisplayRow.index? = [] := by
  rw [List.filterMap_map]
  exact List.filterMap_eq_nil_iff.2 fun c _ => rfl

theorem filterMap_changeId_synthetic (changes : List Change) :
    (changes.map DisplayRow.synthetic).filterMap (·.changeId) = changes.map (·.id) := by
  rw [List.filterMap_map, ← List.filterMap_eq_map]
  rfl

theorem perm_changeId_arrange (shown : List DisplayRow) (left : List Change) :
    (((arrange hides shown left).rows ++ (arrange hides shown left).hidden).filterMap
        (·.changeId)).Perm
      (shown.filterMap (·.changeId) ++ (left.filter fun c => c.kind = .insert).map (·.id)) := by
  have perm := (perm_arrange hides shown left).filterMap (·.changeId)
  rwa [List.filterMap_append (l := shown), filterMap_changeId_synthetic] at perm

namespace Pairing

variable (h : Pairing 0 changes fetched (shown, left))
include h

theorem filterMap_index? : shown.filterMap DisplayRow.index? = List.range fetched.length := by
  have indices := congrArg (List.filterMap id) h.indices
  rw [List.filterMap_map, List.filterMap_map, ← List.range_eq_range'] at indices
  exact indices.trans List.filterMap_some

theorem index?_isSome {r : DisplayRow} (hr : r ∈ shown) : r.index?.isSome = true := by
  have mem : r.index? ∈ (List.range' 0 fetched.length).map some :=
    h.indices ▸ List.mem_map_of_mem hr
  obtain ⟨i, -, eq⟩ := List.mem_map.1 mem
  rw [← eq]
  rfl

theorem indices_arrange :
    (((arrange hides shown left).rows ++ (arrange hides shown left).hidden).filterMap
      DisplayRow.index?).Perm (List.range fetched.length) := by
  have perm := (perm_arrange hides shown left).filterMap DisplayRow.index?
  rwa [List.filterMap_append (l := shown), filterMap_index?_synthetic, List.append_nil,
    h.filterMap_index?] at perm

theorem ascending_arrange :
    ((arrange hides shown left).rows.filterMap DisplayRow.index?).Pairwise (· < ·) ∧
      ((arrange hides shown left).hidden.filterMap DisplayRow.index?).Pairwise (· < ·) := by
  have whole : (shown.filterMap DisplayRow.index?).Pairwise (· < ·) := by
    rw [h.filterMap_index?]
    exact List.pairwise_lt_range
  constructor
  · rw [arrange, List.filterMap_append, filterMap_index?_synthetic, List.append_nil]
    exact whole.sublist (List.filter_sublist.filterMap _)
  · exact whole.sublist (List.filter_sublist.filterMap _)

theorem newLast_arrange :
    ∃ old, (arrange hides shown left).rows = old ++ (changes.filter fun c => c.kind = .insert ∧
        ∀ r ∈ old ++ (arrange hides shown left).hidden, r.changeId ≠ some c.id).map
          DisplayRow.synthetic ∧
      ∀ r ∈ old ++ (arrange hides shown left).hidden, r.index?.isSome = true := by
  have old : ∀ r, r ∈ (shown.filter fun r => !hides r) ++ shown.filter hides ↔ r ∈ shown := by
    intro r
    have back := (perm_arrange hides shown []).mem_iff (a := r)
    simpa only [arrange, List.filter_nil, List.map_nil, List.append_nil] using back
  have insertions : (left.filter fun c => c.kind = .insert) = changes.filter fun c =>
      c.kind = .insert ∧ ∀ r ∈ (shown.filter fun r => !hides r) ++ shown.filter hides,
        r.changeId ≠ some c.id := by
    have untaken : left = _ := h.left
    rw [untaken, List.filter_filter]
    refine List.filter_congr fun c _ => ?_
    simp only [old, Bool.decide_and]
  refine ⟨shown.filter fun r => !hides r, ?_, ?_⟩
  · simp only [arrange, insertions]
  · intro r hr
    exact h.index?_isSome ((old r).1 hr)

theorem nodup_ids (distinct : (changes.map (·.id)).Nodup) :
    (shown.filterMap (·.changeId) ++
      (left.filter fun c => c.kind = .insert).map (·.id)).Nodup := by
  refine List.Nodup.sublist ?_ (h.ids.nodup_iff.2 distinct)
  exact (List.filter_sublist.map _).append_left _

theorem insertions_arrange (distinct : (changes.map (·.id)).Nodup) :
    ∀ c ∈ changes, c.kind = .insert →
      (((arrange hides shown left).rows ++ (arrange hides shown left).hidden).filterMap
        (·.changeId)).count c.id = 1 := by
  intro c hc insertion
  rw [(perm_changeId_arrange hides shown left).count_eq]
  apply List.count_eq_one_of_mem (h.nodup_ids distinct)
  apply List.mem_append.2
  by_cases taken : ∃ r ∈ shown, r.changeId = some c.id
  · obtain ⟨r, hr, of⟩ := taken
    exact .inl (List.mem_filterMap.2 ⟨r, hr, of⟩)
  · have untaken : left = _ := h.left
    have mem : c ∈ left := by
      rw [untaken, List.mem_filter]
      refine ⟨hc, decide_eq_true ?_⟩
      intro r hr of
      exact taken ⟨r, hr, of⟩
    exact .inr (List.mem_map.2 ⟨c, by simpa [insertion] using mem, rfl⟩)

theorem fetchedRows_arrange :
    ∀ r ∈ (arrange hides shown left).rows ++ (arrange hides shown left).hidden, ∀ i,
      r.index? = some i → ∃ row, fetched[i]? = some row ∧ r.IsFetched changes i row := by
  intro r hr i index
  rcases List.mem_append.1 ((perm_arrange hides shown left).mem_iff.1 hr) with hr | new
  · obtain ⟨j, row, found, shows⟩ := h.shows r hr
    rw [Nat.zero_add] at shows
    rcases shows with rfl | ⟨c, hc, rfl⟩
    · obtain rfl : j = i := Option.some.inj index
      exact ⟨row, found, DisplayRow.isFetched_clean ..⟩
    · rw [DisplayRow.index?_changed] at index
      obtain rfl := Option.some.inj index
      exact ⟨row, found, DisplayRow.isFetched_changed hc ..⟩
  · obtain ⟨c, -, rfl⟩ := List.mem_map.1 new
    cases index

theorem conserves_arrange (distinct : (changes.map (·.id)).Nodup) :
    Conserves changes fetched (arrange hides shown left) where
  indices := h.indices_arrange hides
  ascending := h.ascending_arrange hides
  newLast := h.newLast_arrange hides
  ids := (perm_changeId_arrange hides shown left).nodup_iff.2 (h.nodup_ids distinct)
  insertions := h.insertions_arrange hides distinct
  fetchedRows := h.fetchedRows_arrange hides

end Pairing

end Arrange

/-! ## The two ways to show deletions -/

/-- Hidden deletions are those that would be struck through, taken out of the page in their order. -/
theorem overlay_hidden_eq (changes : List Change) (fetched : List Row) :
    overlay .hidden changes fetched =
      { rows := (overlay .strikethrough changes fetched).rows.filter fun r =>
          r.state ≠ .pendingDelete
        hidden := (overlay .strikethrough changes fetched).rows.filter fun r =>
          r.state = .pendingDelete } := by
  have struck (r : DisplayRow) : isHidden .strikethrough r = false := rfl
  have apart : isHidden .hidden = fun r => decide (r.state = .pendingDelete) := by
    funext r
    simp [isHidden]
  have new (c : Change) : (DisplayRow.synthetic c).state = .inserted := rfl
  simp [overlay, struck, apart, new, List.filter_map, Function.comp_def]

theorem overlay_strikethrough_hidden (changes : List Change) (fetched : List Row) :
    (overlay .strikethrough changes fetched).hidden = [] := by
  simp [overlay, isHidden]

theorem length_filter_isPending (rows : List DisplayRow) :
    (rows.filter DisplayRow.isPending).length =
      ((rows.filter fun r => r.state ≠ .pendingDelete).filter DisplayRow.isPending).length +
        (rows.filter fun r => r.state = .pendingDelete).length := by
  have deletions : (rows.filter fun r => r.state = .pendingDelete) =
      (rows.filter DisplayRow.isPending).filter fun r => r.state = .pendingDelete := by
    rw [List.filter_filter]
    refine List.filter_congr fun r _ => ?_
    by_cases deletion : r.state = .pendingDelete <;> simp [deletion, DisplayRow.isPending]
  have others : ((rows.filter fun r => r.state ≠ .pendingDelete).filter DisplayRow.isPending) =
      (rows.filter DisplayRow.isPending).filter fun r => !decide (r.state = .pendingDelete) := by
    rw [List.filter_comm]
    simp only [ne_eq, decide_not]
  have split := List.length_eq_length_filter_add (l := rows.filter DisplayRow.isPending)
    fun r => decide (r.state = .pendingDelete)
  rw [deletions, others]
  omega

/-- The page of changes with different identifiers loses and doubles nothing, however deletions are
shown. Struck through, none is hidden; and hiding them takes the rows to be deleted out of that page, in
their order, and counts as many rows. -/
theorem overlay_conserves {changes : List Change} (distinct : (changes.map (·.id)).Nodup)
    (fetched : List Row) :
    (∀ display, Conserves changes fetched (overlay display changes fetched)) ∧
      (overlay .strikethrough changes fetched).hidden = [] ∧
      (overlay .hidden changes fetched).rows =
        ((overlay .strikethrough changes fetched).rows.filter fun r => r.state ≠ .pendingDelete) ∧
      (overlay .hidden changes fetched).hidden =
        ((overlay .strikethrough changes fetched).rows.filter fun r => r.state = .pendingDelete) ∧
      (overlay .hidden changes fetched).pendingCount =
        (overlay .strikethrough changes fetched).pendingCount := by
  have struck := overlay_strikethrough_hidden changes fetched
  have apart := overlay_hidden_eq changes fetched
  refine ⟨?_, struck, by rw [apart], by rw [apart], ?_⟩
  · intro display
    exact (overlayFetched_pairing 0 fetched distinct).conserves_arrange (isHidden display) distinct
  · have pending := length_filter_isPending (overlay .strikethrough changes fetched).rows
    rw [apart, pendingCount, pendingCount, struck, List.length_nil, Nat.add_zero, pending]

end Page

namespace Sample

/-- Two equal rows take an update and a deletion by the same key, a third row takes an insertion. -/
def crowd : List Change :=
  [staged 1 .update 1 (some (named "d")), staged 2 .insert 5 (some (item 5 "f")),
    staged 3 .delete 1 none, staged 4 .insert 4 (some (item 4 "e")),
    staged 5 .update 1 (some (named "g"))]

theorem overlay_conserves_crowd :
    (crowd.map (·.id)).Nodup ∧
      Page.Conserves crowd [item 1 "a", item 1 "a", item 4 "b"]
        (Page.overlay .hidden crowd [item 1 "a", item 1 "a", item 4 "b"]) ∧
      (Page.overlay .hidden crowd [item 1 "a", item 1 "a", item 4 "b"]).rows.map
        (fun r => (r.origin, r.changeId)) =
          [(.fetched 0, some (id 1)), (.matchedInsert 2, some (id 4)), (.synthetic, some (id 2))] := by
  have distinct : (crowd.map (·.id)).Nodup := by decide
  obtain ⟨conserves, -⟩ := Page.overlay_conserves distinct [item 1 "a", item 1 "a", item 4 "b"]
  exact ⟨distinct, conserves .hidden, rfl⟩

end Sample

end DraftLedger
