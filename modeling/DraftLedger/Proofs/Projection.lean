import DraftLedger.Page
import DraftLedger.Proofs.NetEffect
import Mathlib.Data.List.Pairwise

/-!
# What is shown is what will run

A page lets each fetched row take a change, and the database lets each change go over all rows.
Where the changes point at their rows by different keys, both come to the same rows.

* `Change.taken?`, `Change.shown?` : the change that a fetched row takes, and what is shown of it.
* `Page.overlayFetched_shows` : the page, by induction on the rows.
* `ByKeys`, `executeAll_shown` : the changes, by induction on the changes.
* `Page.overlay_executeAll` : the rows of a page are those that the changes leave.
-/

set_option autoImplicit false

namespace DraftLedger

/-! ## One fetched row -/

namespace Change

variable {row : Row} {c : Change} {before after changes : List Change}

/-- The change that a fetched row takes: the first one that fits it. -/
def taken? (changes : List Change) (row : Row) : Option Change :=
  changes.find? fun c => c.fitsFetched row

/-- What is shown of a fetched row: what the change that it takes makes of it. -/
def shown? (changes : List Change) (row : Row) : Option Row :=
  match taken? changes row with
  | none => some row
  | some c => c.rewrite row

/-- A fetched row that takes a deletion, with that deletion. -/
def removed? (changes : List Change) (row : Row) : Option (Row × Option ChangeId) :=
  ((taken? changes row).filter fun c => c.kind = .delete).map fun c => (row, some c.id)

theorem shown?_of_untaken (h : taken? changes row = none) : shown? changes row = some row := by
  rw [shown?, h]

theorem shown?_of_taken (h : taken? changes row = some c) : shown? changes row = c.rewrite row := by
  rw [shown?, h]

theorem taken?_eq_none : taken? changes row = none ↔ ∀ c ∈ changes, c.fitsFetched row = false := by
  simp [taken?]

theorem taken?_eq_some :
    taken? changes row = some c ↔ c.fitsFetched row = true ∧ ∃ before after,
      changes = before ++ c :: after ∧ ∀ d ∈ before, d.fitsFetched row = false := by
  simp [taken?, List.find?_eq_some_iff_append]

theorem taken?_of_not_fit (misfit : c.fitsFetched row = false) :
    taken? (before ++ c :: after) row = taken? (before ++ after) row := by
  simp [taken?, List.find?_append, misfit]

theorem shown?_congr {changes' : List Change} {rows : List Row}
    (same : ∀ row ∈ rows, taken? changes row = taken? changes' row) :
    rows.filterMap (shown? changes) = rows.filterMap (shown? changes') ∧
      rows.filterMap (removed? changes) = rows.filterMap (removed? changes') :=
  ⟨List.filterMap_congr fun row hr => by rw [shown?, shown?, same row hr],
    List.filterMap_congr fun row hr => by rw [removed?, removed?, same row hr]⟩

end Change

namespace Page

variable {row : Row} {left : List Change} {rows : List Row} {c : Change}

theorem takeFirst_of_none (h : Change.taken? left row = none) : takeFirst row left = none := by
  have misfit := Change.taken?_eq_none.1 h
  induction left with
  | nil => rfl
  | cons c rest ih =>
    obtain ⟨first, others⟩ := List.forall_mem_cons.1 misfit
    rw [takeFirst, first, if_neg Bool.false_ne_true, ih (Change.taken?_eq_none.2 others) others]
    rfl

theorem takeFirst_of_fit {before after : List Change}
    (passed : ∀ d ∈ before, d.fitsFetched row = false) (fits : c.fitsFetched row = true) :
    takeFirst row (before ++ c :: after) = some (c, before ++ after) := by
  induction before with
  | nil => rw [List.nil_append, takeFirst, if_pos fits, List.nil_append]
  | cons d rest ih =>
    obtain ⟨first, others⟩ := List.forall_mem_cons.1 passed
    rw [List.cons_append, takeFirst, first, if_neg Bool.false_ne_true, ih others]
    rfl

/-- The rows that stay in sight are what is shown of the fetched rows, those that do not are the rows
that take a deletion, and all insertions are left. -/
structure Shows (left : List Change) (rows : List Row) (shown : List DisplayRow × List Change) :
    Prop where
  visible : (shown.1.filter fun r => !isHidden .hidden r).map (·.values) =
    rows.filterMap (Change.shown? left)
  hidden : (shown.1.filter (isHidden .hidden)).map (fun r => (r.values, r.changeId)) =
    rows.filterMap (Change.removed? left)
  insertions : shown.2.filter (fun c => c.kind = .insert) = left.filter fun c => c.kind = .insert

section Front

variable {left' : List Change} {shown : List DisplayRow × List Change} {display : DisplayRow}

theorem Shows.visibleRow (shows : Shows left' rows shown)
    (same : ∀ r ∈ rows, Change.taken? left r = Change.taken? left' r)
    (insertions : (left'.filter fun c => c.kind = .insert) = left.filter fun c => c.kind = .insert)
    (inSight : isHidden .hidden display = false)
    (value : Change.shown? left row = some display.values)
    (kept : ∀ c ∈ Change.taken? left row, c.kind ≠ .delete) :
    Shows left (row :: rows) (display :: shown.1, shown.2) := by
  obtain ⟨values, gone⟩ := Change.shown?_congr same
  have stays : Change.removed? left row = none := by
    simpa [Change.removed?, Option.filter_eq_none_iff] using kept
  refine ⟨?_, ?_, shows.insertions.trans insertions⟩
  · rw [List.filterMap_cons_some value, values, ← shows.visible,
      List.filter_cons_of_pos (by simp [inSight]), List.map_cons]
  · rw [List.filterMap_cons_none stays, gone, ← shows.hidden,
      List.filter_cons_of_neg (by simp [inSight])]

theorem Shows.hiddenRow (shows : Shows left' rows shown)
    (same : ∀ r ∈ rows, Change.taken? left r = Change.taken? left' r)
    (insertions : (left'.filter fun c => c.kind = .insert) = left.filter fun c => c.kind = .insert)
    (outOfSight : isHidden .hidden display = true) (value : Change.shown? left row = none)
    (removed : Change.removed? left row = some (display.values, display.changeId)) :
    Shows left (row :: rows) (display :: shown.1, shown.2) := by
  obtain ⟨values, gone⟩ := Change.shown?_congr same
  refine ⟨?_, ?_, shows.insertions.trans insertions⟩
  · rw [List.filterMap_cons_none value, values, ← shows.visible,
      List.filter_cons_of_neg (by simp [outOfSight])]
  · rw [List.filterMap_cons_some removed, gone, ← shows.hidden,
      List.filter_cons_of_pos outOfSight, List.map_cons]

end Front

/-- What rows come to that take nothing in common. -/
theorem overlayFetched_shows (index : Nat)
    (at_ : ∀ c ∈ left, ∀ row ∈ rows, c.fitsFetched row = true → row.isAt c.usableKey? = true)
    (apart : rows.Pairwise fun a b => ∀ c ∈ left, c.fitsFetched a = true → c.fitsFetched b = false)
    (new : ∀ c ∈ left, c.kind = .insert → ∀ row ∈ rows, c.fitsFetched row = false) :
    Shows left rows (overlayFetched index left rows) := by
  induction rows generalizing index left with
  | nil => exact ⟨rfl, rfl, rfl⟩
  | cons row rest ih =>
    obtain ⟨first, others⟩ := List.pairwise_cons.1 apart
    cases taken : Change.taken? left row with
    | none =>
      have shows := ih (index + 1) (fun c hc r hr => at_ c hc r (List.mem_cons_of_mem row hr)) others
        fun c hc insertion r hr => new c hc insertion r (List.mem_cons_of_mem row hr)
      rw [overlayFetched, takeFirst_of_none taken]
      refine shows.visibleRow (fun _ _ => rfl) rfl rfl (Change.shown?_of_untaken taken) ?_
      rw [taken]
      exact nofun
    | some c =>
      obtain ⟨fits, before, after, rfl, passed⟩ := Change.taken?_eq_some.1 taken
      have pointed := at_ c (by simp) row List.mem_cons_self fits
      have same : ∀ r ∈ rest,
          Change.taken? (before ++ c :: after) r = Change.taken? (before ++ after) r :=
        fun r hr => Change.taken?_of_not_fit (first r hr c (by simp) fits)
      have fewer : ∀ d ∈ before ++ after, d ∈ before ++ c :: after := fun d hd => others_subset hd
      have shows : Shows (before ++ after) rest
          (overlayFetched (index + 1) (before ++ after) rest) := ih (index + 1)
        (fun d hd r hr => at_ d (fewer d hd) r (List.mem_cons_of_mem row hr))
        (others.imp fun h d hd => h d (fewer d hd))
        fun d hd insertion r hr => new d (fewer d hd) insertion r (List.mem_cons_of_mem row hr)
      rw [overlayFetched, takeFirst_of_fit passed fits]
      cases kind : c.kind with
      | insert =>
        have misfit := new c (by simp) kind row List.mem_cons_self
        rw [fits] at misfit
        cases misfit
      | update =>
        refine shows.visibleRow same (by simp [kind]) ?_ ?_ ?_
        · simp [isHidden, DisplayRow.changed, kind, DisplayRow.overlaid]
        · simp [Change.shown?_of_taken taken, Change.rewrite, pointed, kind, DisplayRow.changed,
            DisplayRow.overlaid]
        · rw [taken]
          rintro _ ⟨⟩
          simp [kind]
      | delete =>
        refine shows.hiddenRow same (by simp [kind]) ?_ ?_ ?_
        · simp [isHidden, DisplayRow.changed, kind]
        · simp [Change.shown?_of_taken taken, Change.rewrite, pointed, kind]
        · simp [Change.removed?, taken, DisplayRow.changed, kind]

end Page

/-! ## All changes -/

namespace Change

variable {columns : List String} {base : List Row} {c d : Change} {key key' : Row}

/-- Whether the change is a deletion whose key points at the row. -/
def deletes (c : Change) (row : Row) : Bool := c.kind = .delete && row.isAt c.usableKey?

theorem ByKey.fitsFetched (h : c.ByKey columns base key) (row : Row) :
    c.fitsFetched row = row.covers key := by
  have nonempty := (usableKey?_eq_some.1 h.usable).2
  simp [Change.fitsFetched, h.usable, Address.matchesRow, Address.columns, nonempty]

theorem ByKey.deletes_eq (h : c.ByKey columns base key) (row : Row) :
    c.deletes row = (decide (c.kind = .delete) && c.fitsFetched row) := by
  rw [deletes, h.isAt, h.fitsFetched]

end Change

/-- The changes point at their rows by keys over the columns, each by another one. -/
structure ByKeys (columns : List String) (base : List Row) (changes : List Change) : Prop where
  byKey : ∀ c ∈ changes, ∃ key, c.ByKey columns base key
  differ : changes.Pairwise fun a b =>
    ∀ key key', a.usableKey? = some key → b.usableKey? = some key' → (key == key') = false

namespace ByKeys

variable {columns : List String} {base rows : List Row} {changes : List Change} {c : Change}

theorem tail (h : ByKeys columns base (c :: changes)) : ByKeys columns base changes :=
  ⟨fun d hd => h.byKey d (List.mem_cons_of_mem c hd), (List.pairwise_cons.1 h.differ).2⟩

theorem head_differ (h : ByKeys columns base (c :: changes)) {key key' : Row} {d : Change}
    (hc : c.ByKey columns base key) (hd : d ∈ changes) (hd' : d.ByKey columns base key') :
    (key == key') = false :=
  (List.pairwise_cons.1 h.differ).1 d hd key key' hc.usable hd'.usable

/-- The changes behind the one in front go over rows of which none has the key of an insertion. -/
theorem executed (h : ByKeys columns base (c :: changes)) :
    ByKeys columns (c.execute base) changes := by
  obtain ⟨key, hc⟩ := h.byKey c List.mem_cons_self
  refine ⟨fun d hd => ?_, h.tail.differ⟩
  obtain ⟨key', hd'⟩ := h.byKey d (List.mem_cons_of_mem c hd)
  refine ⟨key', hd'.usable, hd'.spans, hd'.updated, fun insertion => ⟨?_, (hd'.inserted insertion).2⟩⟩
  exact Change.execute_uncovered hc hd'.spans (h.head_differ hc hd hd') (hd'.inserted insertion).1

theorem misfit_of_covers (h : ByKeys columns base (c :: changes)) {key row : Row}
    (hc : c.ByKey columns base key) (covered : row.covers key = true) :
    ∀ d ∈ changes, d.fitsFetched row = false := by
  intro d hd
  obtain ⟨key', hd'⟩ := h.byKey d (List.mem_cons_of_mem c hd)
  rw [hd'.fitsFetched]
  exact Change.not_covers_of_covers hc hd' (h.head_differ hc hd hd') covered

/-- What is shown of a row is what the change in front makes of it, followed by what is shown of that
under the others. -/
theorem shown?_cons (h : ByKeys columns base (c :: changes)) (row : Row) :
    Change.shown? (c :: changes) row = (c.rewrite row).bind (Change.shown? changes) := by
  obtain ⟨key, hc⟩ := h.byKey c List.mem_cons_self
  cases covered : row.covers key with
  | true =>
    have fits : c.fitsFetched row = true := (hc.fitsFetched row).trans covered
    have taken : Change.taken? (c :: changes) row = some c := List.find?_cons_of_pos fits
    rw [Change.shown?_of_taken taken]
    cases rewritten : c.rewrite row with
    | none => rfl
    | some row' =>
      have covered' : row'.covers key = true := (hc.covers_rewrite hc.spans rewritten).trans covered
      have untaken := Change.taken?_eq_none.2 (h.misfit_of_covers hc covered')
      exact (Change.shown?_of_untaken untaken).symm
  | false =>
    have misfit : c.fitsFetched row = false := (hc.fitsFetched row).trans covered
    have same : Change.taken? ([] ++ c :: changes) row = Change.taken? ([] ++ changes) row :=
      Change.taken?_of_not_fit misfit
    rw [List.nil_append, List.nil_append] at same
    rw [hc.rewrite_of_not_covers covered, Option.bind_some, Change.shown?, Change.shown?, same]

end ByKeys

/-- What changes by different keys do to rows: each row becomes what is shown of it, and the new rows
come last. -/
theorem executeAll_shown {columns : List String} {rows : List Row} {changes : List Change}
    (h : ByKeys columns rows changes) :
    executeAll changes rows = rows.filterMap (Change.shown? changes) ++
      (changes.filter fun c => c.kind = .insert).map fun c => c.newValues.getD Dict.empty := by
  induction changes generalizing rows with
  | nil =>
    have same : Change.shown? [] = some := by
      funext row
      exact Change.shown?_of_untaken rfl
    simp [executeAll, same]
  | cons c rest ih =>
    obtain ⟨key, hc⟩ := h.byKey c List.mem_cons_self
    have others : executeAll (c :: rest) rows = executeAll rest (c.execute rows) := rfl
    rw [others, ih h.executed]
    by_cases insertion : c.kind = .insert
    · -- The new row has a key of its own: no later change takes it, and it is behind all others.
      obtain ⟨free, covered⟩ := hc.inserted insertion
      have untaken := Change.taken?_eq_none.2 (h.misfit_of_covers hc covered)
      have last : Change.shown? rest (c.newValues.getD Dict.empty) =
          some (c.newValues.getD Dict.empty) := Change.shown?_of_untaken untaken
      have same : rows.filterMap (Change.shown? (c :: rest)) =
          rows.filterMap (Change.shown? rest) := by
        refine List.filterMap_congr fun row hr => ?_
        rw [h.shown?_cons, hc.rewrite_of_not_covers (free row hr), Option.bind_some]
      rw [Change.execute_insert insertion, List.filterMap_append, same,
        List.filter_cons_of_pos (by simpa using insertion)]
      simp [last]
    · rw [Change.execute_rewrite insertion, List.filterMap_filterMap,
        List.filter_cons_of_neg (by simpa using insertion)]
      congr 1
      exact List.filterMap_congr fun row hr => (h.shown?_cons row).symm

/-! ## Pages -/

section Pages

variable {columns : List String} {fetched : List Row} {changes : List Change}

/-- Fetched rows with different values in the columns have no key over them in common. -/
theorem ByKeys.apart (h : ByKeys columns fetched changes)
    (distinct : fetched.Pairwise fun a b =>
      ∃ column ∈ columns, (a.get? column == b.get? column) = false) :
    fetched.Pairwise fun a b => ∀ c ∈ changes,
      c.fitsFetched a = true → c.fitsFetched b = false := by
  refine distinct.imp fun {a b} differ c hc fits => ?_
  obtain ⟨column, mem, differ⟩ := differ
  obtain ⟨key, byKey⟩ := h.byKey c hc
  rw [byKey.fitsFetched] at fits ⊢
  refine Bool.eq_false_iff.2 fun fits' => ?_
  obtain ⟨v, hv⟩ := Option.isSome_iff_exists.1 ((byKey.spans column).2 mem)
  obtain ⟨x, hx, sameX⟩ := Row.holds_iff.1 (Row.covers_iff.1 fits column v hv)
  obtain ⟨y, hy, sameY⟩ := Row.holds_iff.1 (Row.covers_iff.1 fits' column v hv)
  have same : (x == y) = true := BEq.trans sameX (BEq.symm sameY)
  rw [hx, hy] at differ
  simp [same] at differ

theorem ByKeys.removed?_eq (h : ByKeys columns fetched changes) (row : Row) :
    Change.removed? changes row =
      (changes.find? fun c => c.deletes row).map fun c => (row, some c.id) := by
  induction changes with
  | nil => rfl
  | cons c rest ih =>
    obtain ⟨key, hc⟩ := h.byKey c List.mem_cons_self
    have here := hc.deletes_eq row
    cases fits : c.fitsFetched row with
    | false =>
      have spared : c.deletes row = false := by simp [here, fits]
      have same : Change.taken? (c :: rest) row = Change.taken? rest row :=
        List.find?_cons_of_neg (by simp [fits])
      simp only [List.find?_cons, spared]
      rw [Change.removed?, same]
      exact ih h.tail
    | true =>
      have taken : Change.taken? (c :: rest) row = some c := List.find?_cons_of_pos fits
      rw [Change.removed?, taken]
      by_cases deletion : c.kind = .delete
      · have deletes : c.deletes row = true := by simp [here, fits, deletion]
        simp [deletes, deletion]
      · have misfit := h.misfit_of_covers hc ((hc.fitsFetched row).symm.trans fits)
        have spared : c.deletes row = false := by simp [here, deletion]
        have none : rest.find? (fun c => c.deletes row) = none :=
          List.find?_eq_none.2 fun d hd => by
            obtain ⟨key', hd'⟩ := h.byKey d (List.mem_cons_of_mem c hd)
            simp [hd'.deletes_eq, misfit d hd]
        simp [spared, none, deletion]

/-- The rows that a page shows without deletions are the rows that the database has after all changes
went over the fetched rows, and the rows that it hides are those that a deletion points at. -/
theorem Page.overlay_executeAll (h : ByKeys columns fetched changes)
    (distinct : fetched.Pairwise fun a b =>
      ∃ column ∈ columns, (a.get? column == b.get? column) = false) :
    (Page.overlay .hidden changes fetched).rows.map (·.values) = executeAll changes fetched ∧
      (Page.overlay .hidden changes fetched).hidden.map (fun r => (r.values, r.changeId)) =
        fetched.filterMap fun row =>
          (changes.find? fun c => c.deletes row).map fun c => (row, some c.id) := by
  have shows : Page.Shows changes fetched (Page.overlayFetched 0 changes fetched) := by
    refine Page.overlayFetched_shows 0 (fun c hc row _ fits => ?_) (h.apart distinct)
      fun c hc insertion row hr => ?_
    · obtain ⟨key, byKey⟩ := h.byKey c hc
      rw [byKey.isAt, ← byKey.fitsFetched]
      exact fits
    · obtain ⟨key, byKey⟩ := h.byKey c hc
      rw [byKey.fitsFetched]
      exact (byKey.inserted insertion).1 row hr
  constructor
  · rw [executeAll_shown h, ← shows.visible, ← shows.insertions, Page.overlay, List.map_append,
      List.map_map]
    rfl
  · rw [Page.overlay, shows.hidden]
    exact List.filterMap_congr fun row _ => h.removed?_eq row

end Pages

namespace Sample

/-- A change of an item by its key. -/
def staged (n : UInt8) (kind : ChangeKind) (at_ : Int64) (new : Option Row) : Change :=
  ⟨id n, kind, items, some (key at_), none, new, ⟨0, 1⟩, ⟨0, 1⟩⟩

/-- An item is renamed, one is put in, and one is taken out. -/
def shelf : List Change :=
  [staged 1 .update 2 (some (named "d")), staged 2 .insert 4 (some (item 4 "e")),
    staged 3 .delete 1 none]

/-- What the table has. -/
def stock : List Row := [item 1 "a", item 2 "b", item 3 "c"]

theorem shelf_byKeys : ByKeys ["id"] stock shelf where
  byKey c hc := by
    simp only [shelf, List.mem_cons, List.not_mem_nil, or_false] at hc
    rcases hc with rfl | rfl | rfl
    · exact ⟨key 2, rfl, key_spansOver 2, fun _ => named_keepsKey "d" 2, nofun⟩
    · exact ⟨key 4, rfl, key_spansOver 4, nofun, fun _ => ⟨by decide, rfl⟩⟩
    · exact ⟨key 1, rfl, key_spansOver 1, nofun, nofun⟩
  differ := by
    simp only [shelf, List.pairwise_cons, List.mem_cons, List.not_mem_nil, or_false]
    refine ⟨?_, ?_, fun d hd => hd.elim, .nil⟩
    · rintro d (rfl | rfl) k k' ⟨⟩ ⟨⟩ <;> rfl
    · rintro d rfl k k' ⟨⟩ ⟨⟩
      rfl

theorem overlay_executeAll_shelf :
    (Page.overlay .hidden shelf stock).rows.map (·.values) = executeAll shelf stock ∧
      executeAll shelf stock = [item 2 "d", item 3 "c", item 4 "e"] ∧
      (Page.overlay .hidden shelf stock).hidden.map (fun r => (r.values, r.changeId)) =
        [(item 1 "a", some (id 3))] := by
  have distinct : stock.Pairwise fun a b =>
      ∃ column ∈ ["id"], (a.get? column == b.get? column) = false := by
    simp only [stock, List.pairwise_cons, List.mem_cons, List.not_mem_nil, or_false]
    refine ⟨?_, ?_, fun d hd => hd.elim, .nil⟩
    · rintro d (rfl | rfl) <;> exact ⟨"id", rfl, rfl⟩
    · rintro d rfl
      exact ⟨"id", rfl, rfl⟩
  obtain ⟨rows, hidden⟩ := Page.overlay_executeAll shelf_byKeys distinct
  exact ⟨rows, rfl, hidden⟩

end Sample

end DraftLedger
