import DraftLedger.Proofs.CellEquality
import DraftLedger.Row

/-!
# Rows, keys and what a row covers

Rows and keys are compared by their look-ups: two rows are equal when each column has equal cells
in both or is in neither, and a row covers a key when it holds the cells of the key.

* `Dict.beq_iff` : equality of dictionaries through `get?`.
* `Row.covers_iff`, `Row.covers_congr` : covering through `get?`; equal keys are covered alike.
* `Row.SpansOver` : a key over exactly the given columns.
* `Row.KeepsKey` : new values under which a row keeps its key.
* `Row.covers_overlay` : such values change nothing about the keys that a row covers.
* `Row.within` : the columns of one row are among those of another.
-/

set_option autoImplicit false

namespace DraftLedger

namespace Dict

variable {κ ν : Type} [LinearKey κ]

/-! ## Entries and look-ups -/

theorem lookup_eq_some_iff {l : List (κ × ν)} (h : l.Pairwise fun a b => a.1 < b.1) {k : κ}
    {v : ν} : lookup k l = some v ↔ (k, v) ∈ l := by
  induction l with
  | nil => simp [lookup]
  | cons hd rest ih =>
    obtain ⟨k', v'⟩ := hd
    obtain ⟨first, tail⟩ := List.pairwise_cons.1 h
    by_cases same : k = k'
    · subst same
      have absent : (k, v) ∉ rest := fun hm => LinearKey.irrefl k (first _ hm)
      simp [lookup, absent, eq_comm]
    · simp [lookup, same, ih tail]

theorem mem_entries {d : Dict κ ν} {k : κ} {v : ν} : (k, v) ∈ d.entries ↔ d.get? k = some v :=
  (lookup_eq_some_iff d.ascending).symm

theorem lookup_mapValues {μ : Type} (f : κ → ν → μ) (k : κ) (l : List (κ × ν)) :
    lookup k (l.map fun e => (e.1, f e.1 e.2)) = (lookup k l).map (f k) := by
  induction l with
  | nil => rfl
  | cons hd rest ih =>
    obtain ⟨k', v'⟩ := hd
    by_cases same : k = k'
    · subst same; simp [lookup]
    · simp [lookup, same, ih]

theorem get?_mapValues {μ : Type} (d : Dict κ ν) (f : κ → ν → μ) (k : κ) :
    (d.mapValues f).get? k = (d.get? k).map (f k) :=
  lookup_mapValues f k d.entries

theorem get?_filter (d : Dict κ ν) (p : κ → ν → Bool) (k : κ) :
    (d.filter p).get? k = (d.get? k).filter (p k) := by
  apply Option.ext
  intro v
  rw [← mem_entries, Option.filter_eq_some_iff, ← mem_entries]
  exact List.mem_filter

theorem isEmpty_mapValues {μ : Type} (d : Dict κ ν) (f : κ → ν → μ) :
    (d.mapValues f).isEmpty = d.isEmpty := by
  simp [isEmpty, mapValues]

theorem isEmpty_eq_false_iff {d : Dict κ ν} : d.isEmpty = false ↔ ∃ k v, d.get? k = some v := by
  constructor
  · intro h
    obtain ⟨l, hl⟩ := d
    cases l with
    | nil => simp [isEmpty] at h
    | cons e rest => exact ⟨e.1, e.2, by simp [get?, lookup]⟩
  · rintro ⟨k, v, h⟩
    have hm := mem_entries.2 h
    simp only [isEmpty, List.isEmpty_eq_false_iff]
    exact List.ne_nil_of_mem hm

theorem isEmpty_overlay {a : Dict κ ν} (h : a.isEmpty = false) (b : Dict κ ν) :
    (a.overlay b).isEmpty = false := by
  obtain ⟨k, v, found⟩ := isEmpty_eq_false_iff.1 h
  apply isEmpty_eq_false_iff.2
  cases above : b.get? k with
  | none => exact ⟨k, v, by rw [get?_overlay, above, found]; rfl⟩
  | some w => exact ⟨k, w, by rw [get?_overlay, above]; rfl⟩

theorem empty_overlay (a : Dict κ ν) : empty.overlay a = a := by
  apply ext_get?
  intro k
  rw [get?_overlay, get?_empty, Option.or_none]

theorem overlay_assoc (a b c : Dict κ ν) :
    (a.overlay b).overlay c = a.overlay (b.overlay c) := by
  refine ext_get? fun k => ?_
  simp only [get?_overlay]
  cases c.get? k <;> rfl

/-! ## Equality -/

theorem entry_beq [BEq ν] (k k' : κ) (v v' : ν) :
    ((k, v) == (k', v')) = (k == k' && v == v') := rfl

theorem lookup_eq_none_of_lt_first {l : List (κ × ν)} {k k' : κ} {v : ν}
    (ascending : ((k', v) :: l).Pairwise fun a b => a.1 < b.1) (lt : k < k') :
    lookup k ((k', v) :: l) = none := by
  refine lookup_eq_none_of_lt fun e he => ?_
  rcases List.mem_cons.1 he with rfl | he
  · exact lt
  · exact LinearKey.trans lt ((List.pairwise_cons.1 ascending).1 e he)

/-- A dictionary whose look-ups agree with those of an ascending list has equal entries. -/
theorem entries_beq_of_lookup [BEq ν] {l m : List (κ × ν)}
    (hl : l.Pairwise fun a b => a.1 < b.1) (hm : m.Pairwise fun a b => a.1 < b.1)
    (h : ∀ k, (lookup k l == lookup k m) = true) : (l == m) = true := by
  induction l generalizing m with
  | nil =>
    cases m with
    | nil => rfl
    | cons e m => simpa [lookup] using h e.1
  | cons d l ih =>
    cases m with
    | nil => simpa [lookup] using h d.1
    | cons e m =>
      obtain ⟨k, v⟩ := d
      obtain ⟨k', v'⟩ := e
      obtain ⟨lfirst, ltail⟩ := List.pairwise_cons.1 hl
      obtain ⟨mfirst, mtail⟩ := List.pairwise_cons.1 hm
      -- The least keys agree: a key below the other list's least one is not in that list.
      have keys : k = k' := by
        apply LinearKey.connected
        · intro lt
          have same := h k
          rw [lookup_eq_none_of_lt_first hm lt] at same
          simp [lookup] at same
        · intro lt
          have same := h k'
          rw [lookup_eq_none_of_lt_first hl lt] at same
          simp [lookup] at same
      subst keys
      have values : (v == v') = true := by simpa [lookup] using h k
      have rest : (l == m) = true := ih ltail mtail fun q => by
        by_cases hq : q = k
        · subst hq
          simp [lookup_eq_none_of_lt lfirst, lookup_eq_none_of_lt mfirst]
        · simpa [lookup, hq] using h q
      simp [entry_beq, values, rest]

theorem lookup_beq_of_entries [BEq ν] {l m : List (κ × ν)} (h : (l == m) = true) (k : κ) :
    (lookup k l == lookup k m) = true := by
  induction l generalizing m with
  | nil =>
    cases m with
    | nil => rfl
    | cons e m => simp at h
  | cons d l ih =>
    cases m with
    | nil => simp at h
    | cons e m =>
      obtain ⟨k', v⟩ := d
      obtain ⟨k'', v'⟩ := e
      simp only [List.cons_beq_cons, Bool.and_eq_true, entry_beq, beq_iff_eq] at h
      obtain ⟨⟨rfl, values⟩, rest⟩ := h
      by_cases hk : k = k'
      · simp [lookup, hk, values]
      · simpa [lookup, hk] using ih rest

/-- Dictionaries are equal when their look-ups are. -/
theorem beq_iff [BEq ν] {a b : Dict κ ν} :
    (a == b) = true ↔ ∀ k, (a.get? k == b.get? k) = true :=
  ⟨fun h k => lookup_beq_of_entries h k, entries_beq_of_lookup a.ascending b.ascending⟩

instance [BEq ν] [EquivBEq ν] : EquivBEq (Dict κ ν) where
  rfl := by
    intro a
    exact beq_iff.2 fun k => by cases a.get? k <;> simp
  symm := by
    intro a b h
    refine beq_iff.2 fun k => ?_
    have h := beq_iff.1 h k
    cases ha : a.get? k <;> cases hb : b.get? k <;> simp_all [BEq.comm]
  trans := by
    intro a b c h h'
    refine beq_iff.2 fun k => ?_
    have h := beq_iff.1 h k
    have h' := beq_iff.1 h' k
    cases ha : a.get? k <;> cases hb : b.get? k <;> cases hc : c.get? k <;> simp_all
    exact BEq.trans h h'

theorem isEmpty_of_beq [BEq ν] {a b : Dict κ ν} (h : (a == b) = true) : a.isEmpty = b.isEmpty := by
  obtain ⟨x, _⟩ := a
  obtain ⟨y, _⟩ := b
  have h : (x == y) = true := h
  cases x <;> cases y <;> first | rfl | cases h

theorem overlay_beq [BEq ν] [ReflBEq ν] {a b : Dict κ ν} (h : (a == b) = true) (upper : Dict κ ν) :
    (a.overlay upper == b.overlay upper) = true := by
  apply beq_iff.2
  intro k
  rw [get?_overlay, get?_overlay]
  cases upper.get? k with
  | none => exact beq_iff.1 h k
  | some v => exact BEq.rfl

end Dict

namespace Row

/-! ## Covering -/

theorem holds_iff {row : Row} {column : String} {value : Cell} :
    row.holds column value = true ↔ ∃ cell, row.get? column = some cell ∧ (cell == value) = true := by
  unfold holds
  cases row.get? column <;> simp

theorem covers_iff {row part : Row} :
    row.covers part = true ↔
      ∀ column value, part.get? column = some value → row.holds column value = true := by
  simp only [covers, List.all_eq_true]
  exact ⟨fun h column value hv => h (column, value) (Dict.mem_entries.2 hv),
    fun h e he => h e.1 e.2 (Dict.mem_entries.1 he)⟩

theorem covers_of_beq {row a b : Row} (h : (a == b) = true) (ha : row.covers a = true) :
    row.covers b = true := by
  refine covers_iff.2 fun column value hv => ?_
  have same := Dict.beq_iff.1 h column
  cases hc : a.get? column with
  | none => simp [hc, hv] at same
  | some cell =>
    obtain ⟨found, hf, heq⟩ := holds_iff.1 (covers_iff.1 ha column cell hc)
    have hcell : (cell == value) = true := by simpa [hc, hv] using same
    exact holds_iff.2 ⟨found, hf, BEq.trans heq hcell⟩

theorem covers_congr {row a b : Row} (h : (a == b) = true) : row.covers a = row.covers b :=
  Bool.eq_iff_iff.2 ⟨covers_of_beq h, covers_of_beq (BEq.symm h)⟩

theorem covers_of_same {a b key : Row} (h : (a == b) = true) (ha : a.covers key = true) :
    b.covers key = true := by
  refine covers_iff.2 fun column value hv => holds_iff.2 ?_
  obtain ⟨found, hf, heq⟩ := holds_iff.1 (covers_iff.1 ha column value hv)
  have same := Dict.beq_iff.1 h column
  cases hc : b.get? column with
  | none => simp [hf, hc] at same
  | some cell => exact ⟨cell, rfl, BEq.trans (BEq.symm (by simpa [hf, hc] using same)) heq⟩

/-! ## Keys over given columns -/

/-- A key with a cell for each of the columns and for no other. -/
def SpansOver (key : Row) (columns : List String) : Prop :=
  ∀ column, (key.get? column).isSome = true ↔ column ∈ columns

theorem spansOver_of_beq {a b : Row} {columns : List String} (h : (a == b) = true)
    (ha : a.SpansOver columns) : b.SpansOver columns := by
  intro column
  have same := Dict.beq_iff.1 h column
  rw [← ha column]
  cases hva : a.get? column <;> cases hvb : b.get? column <;> simp_all

theorem beq_of_covers {row a b : Row} {columns : List String} (ha : a.SpansOver columns)
    (hb : b.SpansOver columns) (ca : row.covers a = true) (cb : row.covers b = true) :
    (a == b) = true := by
  refine Dict.beq_iff.2 fun column => ?_
  have spans := (ha column).trans (hb column).symm
  cases hva : a.get? column with
  | none =>
    cases hvb : b.get? column with
    | none => rfl
    | some w => simp [hva, hvb] at spans
  | some v =>
    cases hvb : b.get? column with
    | none => simp [hva, hvb] at spans
    | some w =>
      obtain ⟨x, hx, hxv⟩ := holds_iff.1 (covers_iff.1 ca column v hva)
      obtain ⟨y, hy, hyw⟩ := holds_iff.1 (covers_iff.1 cb column w hvb)
      obtain rfl : x = y := Option.some.inj (hx.symm.trans hy)
      simpa using BEq.trans (BEq.symm hxv) hyw

/-- New values under which a row keeps its key: where they set a key column, they set it to what it
is. -/
def KeepsKey (values key : Row) : Prop :=
  ∀ column v w, values.get? column = some v → key.get? column = some w → (v == w) = true

theorem covers_overlay_self {row key values : Row} (hk : values.KeepsKey key)
    (h : row.covers key = true) : Row.covers (row.overlay values) key = true := by
  refine covers_iff.2 fun column w hw => holds_iff.2 ?_
  rw [Dict.get?_overlay]
  cases hv : values.get? column with
  | none => simpa using holds_iff.1 (covers_iff.1 h column w hw)
  | some v => exact ⟨v, rfl, hk column v w hv hw⟩

/-- New values that keep the key of a row change nothing about the keys that the row covers. -/
theorem covers_overlay {row key values other : Row} {columns : List String}
    (hk : values.KeepsKey key) (hs : key.SpansOver columns) (ho : other.SpansOver columns)
    (h : row.covers key = true) : Row.covers (row.overlay values) other = row.covers other := by
  refine Bool.eq_iff_iff.2 ⟨fun hc => ?_, fun hc => ?_⟩
  · exact covers_of_beq (beq_of_covers hs ho (covers_overlay_self hk h) hc) h
  · exact covers_of_beq (beq_of_covers hs ho h hc) (covers_overlay_self hk h)

theorem KeepsKey.symm {a b : Row} (h : a.KeepsKey b) : b.KeepsKey a :=
  fun column v w hv hw => BEq.symm (h column w v hw hv)

theorem keepsKey_of_beq {values a b : Row} (h : (a == b) = true) (hk : values.KeepsKey a) :
    values.KeepsKey b := by
  intro column v w hv hw
  have same := Dict.beq_iff.1 h column
  cases hc : a.get? column with
  | none => simp [hc, hw] at same
  | some cell => exact BEq.trans (hk column v cell hv hc) (by simpa [hc, hw] using same)

theorem KeepsKey.overlay {a b key : Row} (ha : a.KeepsKey key) (hb : b.KeepsKey key) :
    KeepsKey (a.overlay b) key := by
  intro column v w hv hw
  rw [Dict.get?_overlay] at hv
  cases hc : b.get? column with
  | none => exact ha column v w (by simpa [hc] using hv) hw
  | some u =>
    obtain rfl : u = v := by simpa [hc] using hv
    exact hb column u w hc hw

theorem covers_overlay_both {row part : Row} (h : row.covers part = true) (values : Row) :
    Row.covers (row.overlay values) (part.overlay values) = true := by
  refine covers_iff.2 fun column w hw => holds_iff.2 ?_
  rw [Dict.get?_overlay] at hw ⊢
  cases hv : values.get? column with
  | none => simpa using holds_iff.1 (covers_iff.1 h column w (by simpa [hv] using hw))
  | some v =>
    obtain rfl : v = w := by simpa [hv] using hw
    exact ⟨v, rfl, BEq.rfl⟩

theorem keepsKey_of_covers {row key : Row} (h : row.covers key = true) : row.KeepsKey key := by
  intro column v w hv hw
  obtain ⟨cell, hc, heq⟩ := holds_iff.1 (covers_iff.1 h column w hw)
  obtain rfl : cell = v := Option.some.inj (hc.symm.trans hv)
  exact heq

/-! ## The key of a row over given columns -/

theorem get?_ofList_map {columns : List String} {f : String → Cell} (d : Row) (q : String) :
    ((columns.map fun c => (c, f c)).foldl (fun d e => d.insert e.1 e.2) d).get? q =
      if q ∈ columns then some (f q) else d.get? q := by
  induction columns generalizing d with
  | nil => simp
  | cons c rest ih =>
    rw [List.map_cons, List.foldl_cons, ih]
    by_cases hr : q ∈ rest
    · simp [hr]
    · by_cases hc : q = c
      · subst hc; simp [hr]
      · simp [hr, hc, Dict.get?_insert_of_ne]

theorem mapM_cells {row : Row} {columns : List String} {pairs : List (String × Cell)}
    (h : (columns.mapM fun c => (row.get? c).map fun v => (c, v)) = some pairs) :
    (∀ c ∈ columns, (row.get? c).isSome = true) ∧
      pairs = columns.map fun c => (c, (row.get? c).getD .null) := by
  induction columns generalizing pairs with
  | nil =>
    cases h
    simp
  | cons c columns ih =>
    rw [List.mapM_cons] at h
    simp only [Option.bind_eq_bind, Option.bind_eq_some_iff, Option.map_eq_some_iff,
      Option.pure_def, Option.some.injEq] at h
    obtain ⟨p, ⟨v, hv, rfl⟩, rest, hrest, rfl⟩ := h
    obtain ⟨present, rfl⟩ := ih hrest
    refine ⟨List.forall_mem_cons.2 ⟨by simp [hv], present⟩, by simp [hv]⟩

/-- The key that is taken from a row is over the columns and holds the cells of the row. -/
theorem select?_eq_some {row key : Row} {columns : List String}
    (h : row.select? columns = some key) :
    columns ≠ [] ∧ (∀ c ∈ columns, (row.get? c).isSome = true) ∧
      ∀ q, key.get? q = if q ∈ columns then row.get? q else none := by
  unfold select? at h
  split at h
  · exact absurd h (by simp)
  next nonempty =>
  obtain ⟨pairs, hp, rfl⟩ := Option.map_eq_some_iff.1 h
  obtain ⟨present, rfl⟩ := mapM_cells hp
  refine ⟨nonempty, present, fun q => ?_⟩
  rw [Dict.ofList, get?_ofList_map]
  by_cases hq : q ∈ columns
  · obtain ⟨v, hv⟩ := Option.isSome_iff_exists.1 (present q hq)
    simp [hq, hv]
  · simp [hq]

theorem select?_of_contains {row : Row} {columns : List String} (nonempty : columns ≠ [])
    (present : ∀ column ∈ columns, row.contains column = true) :
    ∃ key, row.select? columns = some key := by
  have cells : ∃ pairs, (columns.mapM fun c => (row.get? c).map fun v => (c, v)) = some pairs := by
    clear nonempty
    induction columns with
    | nil => exact ⟨[], rfl⟩
    | cons column rest ih =>
      obtain ⟨here, others⟩ := List.forall_mem_cons.1 present
      obtain ⟨v, found⟩ := Option.isSome_iff_exists.1 here
      obtain ⟨pairs, more⟩ := ih others
      exact ⟨(column, v) :: pairs, by simp [List.mapM_cons, found, more]⟩
  obtain ⟨pairs, found⟩ := cells
  exact ⟨Dict.ofList pairs, by rw [select?, if_neg nonempty, found]; rfl⟩

theorem spansOver_of_select? {row key : Row} {columns : List String}
    (h : row.select? columns = some key) : key.SpansOver columns := by
  obtain ⟨-, present, look⟩ := select?_eq_some h
  intro column
  rw [look column]
  by_cases hc : column ∈ columns
  · simp [hc, present column hc]
  · simp [hc]

theorem covers_of_select? {row key : Row} {columns : List String}
    (h : row.select? columns = some key) : row.covers key = true := by
  obtain ⟨-, -, look⟩ := select?_eq_some h
  refine covers_iff.2 fun column value hv => holds_iff.2 ⟨value, ?_, BEq.rfl⟩
  rw [look column] at hv
  split at hv
  · exact hv
  · cases hv

theorem KeepsKey.select? {row part key : Row} {columns : List String} (h : row.KeepsKey part)
    (selected : row.select? columns = some key) : key.KeepsKey part := by
  obtain ⟨-, -, look⟩ := select?_eq_some selected
  intro column v w hv hw
  rw [look column] at hv
  split at hv
  · exact h column v w hv hw
  · cases hv

theorem SpansOver.isEmpty_eq_false {key : Row} {columns : List String}
    (h : key.SpansOver columns) (nonempty : columns ≠ []) : key.isEmpty = false := by
  obtain ⟨c, rest, rfl⟩ := List.exists_cons_of_ne_nil nonempty
  obtain ⟨v, hv⟩ := Option.isSome_iff_exists.1 ((h c).2 List.mem_cons_self)
  exact Dict.isEmpty_eq_false_iff.2 ⟨c, v, hv⟩

theorem isEmpty_of_select? {row key : Row} {columns : List String}
    (h : row.select? columns = some key) : key.isEmpty = false :=
  (spansOver_of_select? h).isEmpty_eq_false (select?_eq_some h).1

/-! ## Columns -/

section Columns

variable {row part a b : Row}

/-- Whether all columns of the row are columns of the other one. -/
def within (a b : Row) : Bool := a.keys.all b.contains

theorem within_iff :
    a.within b = true ↔ ∀ column, a.contains column = true → b.contains column = true := by
  simp only [within, List.all_eq_true, Dict.keys, List.mem_map]
  constructor
  · intro all column present
    obtain ⟨v, found⟩ := Option.isSome_iff_exists.1 present
    exact all column ⟨(column, v), Dict.mem_entries.2 found, rfl⟩
  · rintro all _ ⟨e, mem, rfl⟩
    exact all e.1 (Option.isSome_of_mem (Dict.mem_entries.1 mem))

theorem within_of_covers (h : row.covers part = true) : part.within row = true := by
  refine within_iff.2 fun column present => ?_
  obtain ⟨w, found⟩ := Option.isSome_iff_exists.1 present
  obtain ⟨v, hv, -⟩ := holds_iff.1 (covers_iff.1 h column w found)
  exact Option.isSome_of_mem hv

theorem isEmpty_of_covers (h : row.covers part = true) (nonempty : part.isEmpty = false) :
    row.isEmpty = false := by
  obtain ⟨column, w, found⟩ := Dict.isEmpty_eq_false_iff.1 nonempty
  obtain ⟨v, hv, -⟩ := holds_iff.1 (covers_iff.1 h column w found)
  exact Dict.isEmpty_eq_false_iff.2 ⟨column, v, hv⟩

/-- A row that has nothing else in the columns of a part covers it if it has them all. -/
theorem covers_eq_within (keeps : row.KeepsKey part) : row.covers part = part.within row := by
  refine Bool.eq_iff_iff.2 ⟨within_of_covers, fun all => ?_⟩
  refine covers_iff.2 fun column w found => ?_
  obtain ⟨v, hv⟩ := Option.isSome_iff_exists.1 (within_iff.1 all column (Option.isSome_of_mem found))
  exact holds_iff.2 ⟨v, hv, keeps column v w hv found⟩

theorem within_of_beq (h : (a == b) = true) : a.within b = true := by
  refine within_iff.2 fun column present => ?_
  have same := Dict.beq_iff.1 h column
  unfold Dict.contains at present ⊢
  cases ha : a.get? column <;> cases hb : b.get? column <;> simp_all

/-- Rows that agree in the columns of both are equal if they have the same columns. -/
theorem beq_eq_within (keeps : a.KeepsKey b) : (a == b) = (a.within b && b.within a) := by
  refine Bool.eq_iff_iff.2 ⟨fun same => ?_, fun both => ?_⟩
  · rw [within_of_beq same, within_of_beq (BEq.symm same), Bool.and_self]
  · obtain ⟨there, back⟩ := Bool.and_eq_true_iff.1 both
    refine Dict.beq_iff.2 fun column => ?_
    cases ha : a.get? column with
    | none =>
      cases hb : b.get? column with
      | none => rfl
      | some w =>
        have present := within_iff.1 back column (Option.isSome_of_mem hb)
        simp [Dict.contains, ha] at present
    | some v =>
      obtain ⟨w, hb⟩ :=
        Option.isSome_iff_exists.1 (within_iff.1 there column (Option.isSome_of_mem ha))
      rw [hb]
      exact keeps column v w ha hb

theorem within_trans {c : Row} (h : a.within b = true) (h' : b.within c = true) :
    a.within c = true :=
  within_iff.2 fun column present => within_iff.1 h' column (within_iff.1 h column present)

theorem within_overlay (a b : Row) : a.within (a.overlay b) = true := by
  refine within_iff.2 fun column present => ?_
  unfold Dict.contains at present ⊢
  rw [Dict.get?_overlay]
  cases b.get? column <;> simp [present]

theorem within_congr {a' b' : Row} (ha : ∀ column, a'.contains column = a.contains column)
    (hb : ∀ column, b'.contains column = b.contains column) : a'.within b' = a.within b := by
  rw [Bool.eq_iff_iff, within_iff, within_iff]
  simp only [ha, hb]

end Columns

end Row

instance : EquivBEq Address where
  rfl := by
    intro a
    cases a <;> exact BEq.rfl (α := Row)
  symm := by
    intro a b h
    cases a <;> cases b <;> first | exact BEq.symm (α := Row) h | cases h
  trans := by
    intro a b c h h'
    cases a <;> cases b <;> cases c <;> first | exact BEq.trans (α := Row) h h' | cases h | cases h'

end DraftLedger
