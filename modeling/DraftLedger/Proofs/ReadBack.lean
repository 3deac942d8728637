import DraftLedger.Proofs.CellText
import DraftLedger.Proofs.Sample

/-!
# Documents read back

A document is read back as it was written exactly when its text is not nested more deeply than a text
may be.  A document that is nested more deeply cannot be read at all.

* `Row.ofJson?_toJson`, `Change.ofJson?_toJson`, `Document.ofJson?_toJson_eq` : reading the tree of
  each part.
* `Document.withOneNaN`, `Document.floats` : what comes back, and the numbers it depends on.
* `Document.read?_render` : reading the text of a document.
* `Document.decode_render` : reading it under a key, as the document of its session.
-/

set_option autoImplicit false

namespace DraftLedger

/-! ## Depth -/

namespace Json

theorem itemsDepth_le_iff {items : List Json} {n : Nat} :
    itemsDepth items ≤ n ↔ ∀ j ∈ items, j.depth ≤ n := by
  induction items with
  | nil => simp [itemsDepth]
  | cons item rest ih => rw [itemsDepth, Nat.max_le, ih, List.forall_mem_cons]

theorem membersDepth_le_iff {members : List (String × Json)} {n : Nat} :
    membersDepth members ≤ n ↔ ∀ m ∈ members, m.2.depth ≤ n := by
  induction members with
  | nil => simp [membersDepth]
  | cons member rest ih =>
    obtain ⟨key, value⟩ := member
    rw [membersDepth, Nat.max_le, ih, List.forall_mem_cons]

theorem array_depth_le_iff {items : List Json} {n : Nat} :
    (array items).depth ≤ n + 1 ↔ ∀ j ∈ items, j.depth ≤ n := by
  rw [depth, Nat.add_le_add_iff_right, itemsDepth_le_iff]

theorem object_depth_le_iff {members : List (String × Json)} {n : Nat} :
    (object members).depth ≤ n + 1 ↔ ∀ m ∈ members, m.2.depth ≤ n := by
  rw [depth, Nat.add_le_add_iff_right, membersDepth_le_iff]

theorem word?_ofNat {n bound : Nat} (h : n < bound) : (ofNat n).word? bound = some n := by
  have fits : (0 : Int) ≤ n ∧ (n : Int) < bound := by omega
  simp only [word?, ofNat, Numeral.int?_ofInt, fits, and_self, if_true, Int.toNat_natCast]

end Json

/-! ## Rows -/

namespace Row

/-- The floating-point numbers in a row. -/
def floats (row : Row) : List Binary64 := row.entries.flatMap fun e => e.2.floats

/-- The row with one not-a-number. -/
def withOneNaN (row : Row) : Row := row.mapValues fun _ c => c.withOneNaN

theorem toJson_readable (row : Row) (h : ∀ x ∈ row.floats, x.ReadsBack) : row.toJson.Readable :=
  Json.membersReadable_iff.2 fun m hm => by
    obtain ⟨e, he, rfl⟩ := List.mem_map.1 hm
    exact e.2.toJson_readable fun x hx => h x (List.mem_flatMap.2 ⟨e, he, hx⟩)

theorem columnsOfJson_toJson (entries : List (String × Cell)) (room : Nat)
    (h : ∀ e ∈ entries, ∀ x ∈ e.2.floats, x.ReadsBack) :
    columnsOfJson .direct room (entries.map fun e => (e.1, e.2.toJson)) =
      if ∀ e ∈ entries, e.2.toJson.depth ≤ room then
        .ok (entries.map fun e => (e.1, e.2.withOneNaN))
      else .error .malformed := by
  induction entries with
  | nil => simp [columnsOfJson]
  | cons e rest ih =>
    obtain ⟨first, others⟩ := List.forall_mem_cons.1 h
    simp only [List.map_cons, columnsOfJson, Cell.ofJson_toJson e.2 room first, ih others,
      List.forall_mem_cons]
    by_cases fits : e.2.toJson.depth ≤ room
    · by_cases fit : ∀ e ∈ rest, e.2.toJson.depth ≤ room
      · simp only [if_pos fits, if_pos fit, if_pos (And.intro fits fit)]
      · simp only [if_pos fits, if_neg fit, if_neg fun both : _ ∧ _ => fit both.2]
    · simp only [if_neg fits, if_neg fun both : _ ∧ _ => fits both.1]

theorem ofJson?_toJson (row : Row) (room : Nat) (h : ∀ x ∈ row.floats, x.ReadsBack) :
    ofJson? .direct room row.toJson =
      if row.toJson.depth ≤ room then some row.withOneNaN else none := by
  have cells : ∀ e ∈ row.entries, ∀ x ∈ e.2.floats, x.ReadsBack := fun e he x hx =>
    h x (List.mem_flatMap.2 ⟨e, he, hx⟩)
  cases room with
  | zero => simp [ofJson?, toJson, Json.depth]
  | succ room =>
    have depth : row.toJson.depth ≤ room + 1 ↔ ∀ e ∈ row.entries, e.2.toJson.depth ≤ room := by
      rw [toJson, Json.object_depth_le_iff, List.forall_mem_map]
    have back : Dict.ofList (row.entries.map fun e => (e.1, e.2.withOneNaN)) = row.withOneNaN :=
      Dict.ofList_ascending row.withOneNaN.ascending
    have read : ofJson? .direct (room + 1) row.toJson =
        (columnsOfJson .direct room (row.entries.map fun e => (e.1, e.2.toJson))).toOption.map
          Dict.ofList := rfl
    rw [read, columnsOfJson_toJson row.entries room cells]
    by_cases fits : row.toJson.depth ≤ room + 1
    · rw [if_pos fits, if_pos (depth.1 fits)]
      exact congrArg some back
    · rw [if_neg fits, if_neg fun all => fits (depth.2 all)]
      rfl

theorem optional?_readBack (row : Option Row) (room : Nat)
    (h : ∀ r ∈ row, ∀ x ∈ r.floats, x.ReadsBack) :
    Json.optional? (ofJson? .direct room) (row.map toJson) =
      if ∀ r ∈ row, r.toJson.depth ≤ room then some (row.map withOneNaN) else none := by
  rw [optional?_toJson]
  cases row with
  | none => simp
  | some r =>
    simp only [ofJson?_toJson r room (h r rfl), Option.mem_def, Option.some.injEq, forall_eq',
      Option.map_some]
    split <;> rfl

end Row

/-! ## Changes -/

theorem Stamp.ofJson?_toJson (s : Stamp) : Stamp.ofJson? s.toJson = some s := by
  have fields : s.toJson.fields? ["wall_ms", "counter"] =
      some [some (Json.ofNat s.wall.toNat), some (Json.ofNat s.counter.toNat)] := by
    simp [Json.fields?, Json.membersNamed, toJson]
  have wall := Json.word?_ofNat s.wall.toNat_lt_size
  have counter := Json.word?_ofNat s.counter.toNat_lt_size
  unfold ofJson?
  rw [Option.bind_eq_bind, fields, Option.bind_some]
  simp only [Option.bind_eq_bind]
  rw [wall, Option.bind_some, counter, Option.bind_some, UInt64.ofNat_toNat, UInt32.ofNat_toNat]

theorem Table.depth_toJson (t : Table) : t.toJson.depth = 2 := by
  obtain ⟨database, schema, name⟩ := t
  cases schema <;> rfl

namespace Change

/-- The rows of a change. -/
def rows (c : Change) : List Row :=
  c.primaryKey.toList ++ (c.oldValues.toList ++ c.newValues.toList)

/-- The floating-point numbers in a change. -/
def floats (c : Change) : List Binary64 := c.rows.flatMap Row.floats

/-- The change with one not-a-number. -/
def withOneNaN (c : Change) : Change :=
  { c with
      primaryKey := c.primaryKey.map Row.withOneNaN
      oldValues := c.oldValues.map Row.withOneNaN
      newValues := c.newValues.map Row.withOneNaN }

theorem forall_rows {c : Change} {p : Row → Prop} :
    (∀ r ∈ c.rows, p r) ↔
      (∀ r ∈ c.primaryKey, p r) ∧ (∀ r ∈ c.oldValues, p r) ∧ ∀ r ∈ c.newValues, p r := by
  simp only [rows, List.forall_mem_append, Option.mem_toList, Option.mem_def]

theorem toJson_readable (c : Change) (h : ∀ x ∈ c.floats, x.ReadsBack) : c.toJson.Readable := by
  have row (name : String) (row : Option Row) (mem : ∀ r ∈ row, r ∈ c.rows) :
      ∀ m ∈ Json.member? name (row.map Row.toJson), m.2.Readable := by
    cases row with
    | none => simp [Json.member?]
    | some r =>
      have readable := r.toJson_readable fun x hx =>
        h x (List.mem_flatMap.2 ⟨r, mem r rfl, hx⟩)
      simpa [Json.member?] using readable
  have mem : ∀ r ∈ c.rows, r ∈ c.rows := fun r hr => hr
  obtain ⟨key, old, new⟩ := forall_rows.1 mem
  refine Json.membersReadable_iff.2 ?_
  simp only [List.forall_mem_append]
  refine ⟨⟨⟨⟨?_, row _ _ key⟩, row _ _ old⟩, row _ _ new⟩, ?_⟩
  · have table : c.table.toJson.Readable := by
      obtain ⟨database, schema, name⟩ := c.table
      cases schema <;> exact ⟨⟨trivial, by simp [Json.MembersReadable, Json.Readable]⟩, trivial, trivial⟩
    simpa [Json.Readable] using table
  · have stamp (s : Stamp) : s.toJson.Readable :=
      ⟨Json.ofNat_readable _, Json.ofNat_readable _, trivial⟩
    simpa using ⟨stamp c.timestamp, stamp c.updatedAt⟩

/-- A change is nested as deeply as its rows, if it is nested more deeply than its table. -/
theorem depth_le_iff (c : Change) (room : Nat) :
    c.toJson.depth ≤ room + 3 ↔ ∀ r ∈ c.rows, r.toJson.depth ≤ room + 2 := by
  have row (name : String) (row : Option Row) :
      (∀ m ∈ Json.member? name (row.map Row.toJson), m.2.depth ≤ room + 2) ↔
        ∀ r ∈ row, r.toJson.depth ≤ room + 2 := by
    cases row <;> simp [Json.member?]
  rw [toJson, Json.object_depth_le_iff, forall_rows]
  simp only [List.forall_mem_append, row]
  simp [Table.depth_toJson, Stamp.toJson, Json.depth, Json.membersDepth, Json.ofNat, and_assoc]

theorem ofJson?_toJson (c : Change) (room : Nat) (h : ∀ x ∈ c.floats, x.ReadsBack) :
    ofJson? (room + 3) c.toJson =
      if c.toJson.depth ≤ room + 3 then some c.withOneNaN else none := by
  have rows : ∀ r ∈ c.rows, ∀ x ∈ r.floats, x.ReadsBack := fun r hr x hx =>
    h x (List.mem_flatMap.2 ⟨r, hr, hx⟩)
  obtain ⟨key, old, new⟩ := forall_rows.1 rows
  simp only [depth_le_iff, forall_rows]
  unfold ofJson?
  simp only [fields?_toJson, Option.bind_eq_bind, Option.bind_some, idOfJson?_text, Cell.choice?,
    ChangeKind.ofName?_name, Table.ofJson?_toJson, Stamp.ofJson?_toJson, Nat.add_one_sub_one,
    Row.optional?_readBack c.primaryKey (room + 2) key,
    Row.optional?_readBack c.oldValues (room + 2) old,
    Row.optional?_readBack c.newValues (room + 2) new]
  by_cases keyFits : ∀ r ∈ c.primaryKey, r.toJson.depth ≤ room + 2
  · by_cases oldFits : ∀ r ∈ c.oldValues, r.toJson.depth ≤ room + 2
    · by_cases newFits : ∀ r ∈ c.newValues, r.toJson.depth ≤ room + 2
      · simp only [if_pos keyFits, if_pos oldFits, if_pos newFits, Option.bind_some,
          if_pos (And.intro keyFits (And.intro oldFits newFits)), withOneNaN]
      · simp only [if_pos keyFits, if_pos oldFits, if_neg newFits, Option.bind_some,
          Option.bind_none, if_neg fun all : _ ∧ _ ∧ _ => newFits all.2.2]
    · simp only [if_pos keyFits, if_neg oldFits, Option.bind_some, Option.bind_none,
        if_neg fun all : _ ∧ _ ∧ _ => oldFits all.2.1]
  · simp only [if_neg keyFits, Option.bind_none, if_neg fun all : _ ∧ _ ∧ _ => keyFits all.1]

end Change

/-! ## Documents -/

theorem mapM_guarded {α β : Type} {f : α → Option β} {g : α → β} {p : α → Prop} [DecidablePred p]
    {l : List α} (h : ∀ a ∈ l, f a = if p a then some (g a) else none) :
    l.mapM f = if ∀ a ∈ l, p a then some (l.map g) else none := by
  induction l with
  | nil => simp
  | cons a rest ih =>
    obtain ⟨first, others⟩ := List.forall_mem_cons.1 h
    rw [List.mapM_cons, first, ih others]
    simp only [List.forall_mem_cons]
    by_cases holds : p a
    · by_cases hold : ∀ a ∈ rest, p a
      · simp only [if_pos holds, if_pos hold, if_pos (And.intro holds hold)]
        rfl
      · simp only [if_pos holds, if_neg hold, if_neg fun both : _ ∧ _ => hold both.2]
        rfl
    · simp only [if_neg holds, if_neg fun both : _ ∧ _ => holds both.1]
      rfl

namespace Document

/-- The floating-point numbers in a document. -/
def floats (d : Document) : List Binary64 := d.changes.flatMap Change.floats

/-- The document with one not-a-number. -/
def withOneNaN (d : Document) : Document := { d with changes := d.changes.map Change.withOneNaN }

theorem toJson_readable (d : Document) (h : ∀ x ∈ d.floats, x.ReadsBack) : d.toJson.Readable := by
  refine ⟨Json.ofNat_readable _, trivial, trivial, Json.itemsReadable_iff.2 fun j hj => ?_, trivial⟩
  obtain ⟨c, hc, rfl⟩ := List.mem_map.1 hj
  exact c.toJson_readable fun x hx => h x (List.mem_flatMap.2 ⟨c, hc, hx⟩)

theorem depth_le_iff (d : Document) (room : Nat) :
    d.toJson.depth ≤ room + 2 ↔ ∀ c ∈ d.changes, c.toJson.depth ≤ room := by
  rw [toJson, Json.object_depth_le_iff]
  simp only [List.forall_mem_cons, Json.array_depth_le_iff, List.forall_mem_map]
  simp [Json.depth, Json.ofNat]

/-- The tree of a document is read back if it is not nested too deeply, and else not. -/
theorem ofJson?_toJson_eq (d : Document) (h : ∀ x ∈ d.floats, x.ReadsBack) :
    ofJson? d.toJson = if d.toJson.depth ≤ Json.depthLimit then some d.withOneNaN else none := by
  have changes : (Json.array (d.changes.map Change.toJson)).list?
      (Change.ofJson? (Json.depthLimit - 2)) =
        if ∀ c ∈ d.changes, c.toJson.depth ≤ Json.depthLimit - 2 then
          some (d.changes.map Change.withOneNaN)
        else none := by
    rw [Json.list?, List.mapM_map]
    exact mapM_guarded fun c hc =>
      c.ofJson?_toJson 122 fun x hx => h x (List.mem_flatMap.2 ⟨c, hc, hx⟩)
  have depth : d.toJson.depth ≤ Json.depthLimit ↔
      ∀ c ∈ d.changes, c.toJson.depth ≤ Json.depthLimit - 2 := d.depth_le_iff 125
  have version : (Json.ofNat d.version.toNat).word? UInt32.size = some d.version.toNat :=
    Json.word?_ofNat d.version.toNat_lt_size
  unfold ofJson?
  rw [Option.bind_eq_bind, fields?_toJson, Option.bind_some]
  simp only [Option.bind_eq_bind, Json.text?, Json.flag?]
  rw [version, Option.bind_some, Option.bind_some, Option.bind_some, changes, UInt32.ofNat_toNat]
  by_cases fits : ∀ c ∈ d.changes, c.toJson.depth ≤ Json.depthLimit - 2
  · rw [if_pos fits, if_pos (depth.2 fits)]
    rfl
  · rw [if_neg fits, if_neg fun all => fits (depth.1 all)]
    rfl

/-- The text of a document is read back as that document if it is not nested too deeply, and else it
cannot be read. -/
theorem read?_render (d : Document) (h : ∀ x ∈ d.floats, x.ReadsBack) :
    read? d.render = if d.toJson.depth ≤ Json.depthLimit then some d.withOneNaN else none := by
  rw [read?, render, Json.read?_render_of_readable (d.toJson_readable h), Option.bind_some]
  exact d.ofJson?_toJson_eq h

theorem decode_of_depth {d : Document} (key : String) (version : d.version.toNat = documentVersion)
    (floats : ∀ x ∈ d.floats, x.ReadsBack) (depth : d.toJson.depth ≤ Json.depthLimit) :
    decode key d.render d.session = .ok d.withOneNaN := by
  have version' : ¬ d.withOneNaN.version.toNat ≠ documentVersion := not_not.2 version
  have session : ¬ d.withOneNaN.session ≠ d.session := not_not.2 rfl
  simp only [decode, d.read?_render floats, if_pos depth, if_neg version', if_neg session]

theorem decode_of_not_depth {d : Document} (key : String) (floats : ∀ x ∈ d.floats, x.ReadsBack)
    (depth : ¬ d.toJson.depth ≤ Json.depthLimit) :
    decode key d.render d.session = .error .unreadable := by
  simp only [decode, d.read?_render floats, if_neg depth]

/-- A document of the current version is read back under the key of its session, with one
not-a-number in the place of all others, exactly when its text is not nested too deeply; else it is
unreadable. -/
theorem decode_render (d : Document) (key : String) (version : d.version.toNat = documentVersion)
    (floats : ∀ x ∈ d.floats, x.ReadsBack) :
    decode key d.render d.session =
      if d.toJson.depth ≤ Json.depthLimit then .ok d.withOneNaN else .error .unreadable := by
  split
  · next fits => exact decode_of_depth key version floats fits
  · next deep => exact decode_of_not_depth key floats deep

end Document

namespace Sample

/-- The document of a session that has inserted one row. -/
def document (values : Row) : Document :=
  Document.current desk true
    [⟨id 1, .insert, items, none, none, some values, ⟨0, 1⟩, ⟨0, 1⟩⟩]

/-- A row with a text that has to be escaped, a floating-point number, a not-a-number that is not the
one that is read, a leap second and an empty array in an array. -/
def measured : Row :=
  Dict.ofList [("note", .text "\"\\\n"), ("ratio", .float ⟨0x3ff8000000000000⟩),
    ("missing", .float ⟨0x7ff0000000000001⟩),
    ("at", .time ⟨23, 59, 60, 500000000, by decide, by decide, by decide, by decide⟩),
    ("tags", .array [.array []])]

theorem measured_floats : ∀ x ∈ (document measured).floats, x.ReadsBack := by
  have floats : (document measured).floats = [⟨0x7ff0000000000001⟩, ⟨0x3ff8000000000000⟩] := rfl
  rw [floats]
  intro x hx
  rcases List.mem_cons.1 hx with rfl | hx
  · intro finite
    cases finite
  · rw [List.mem_singleton.1 hx]
    exact fun finite => rfl

theorem decode_render_measured :
    Document.decode "key" (document measured).render desk = .ok (document measured).withOneNaN := by
  have shallow : (document measured).toJson.depth ≤ Json.depthLimit := by decide +kernel
  have back := (document measured).decode_render "key" rfl measured_floats
  rw [if_pos shallow] at back
  exact back

/-- Arrays in arrays. -/
def nested : Nat → Cell
  | 0 => .array []
  | n + 1 => .array [nested n]

theorem depth_nested (n : Nat) : (nested n).toJson.depth = 2 * n + 2 := by
  induction n with
  | zero => rfl
  | succ n ih =>
    rw [nested, Cell.toJson, Cell.depth_tagged, Json.depth, Cell.itemsToJson, Cell.itemsToJson,
      Json.itemsDepth, Json.itemsDepth, ih]
    omega

theorem floats_nested (n : Nat) : (nested n).floats = [] := by
  induction n with
  | zero => rfl
  | succ n ih => simp [nested, Cell.floats, Cell.itemsFloats, ih]

/-- A row that holds arrays in arrays. -/
def nesting (n : Nat) : Row := Dict.ofList [("tags", nested n)]

theorem nesting_floats (n : Nat) : (document (nesting n)).floats = [] := by
  have row : (nesting n).floats = (nested n).floats ++ [] := rfl
  simp [document, Document.current, Document.floats, Change.floats, Change.rows, row, floats_nested]

/-- Four brackets stand around the cell of a document, and two for each array in it. -/
theorem nesting_depth (n : Nat) :
    (document (nesting n)).toJson.depth ≤ Json.depthLimit → n ≤ 60 := by
  intro shallow
  have changes := ((document (nesting n)).depth_le_iff 125).1 shallow _ List.mem_cons_self
  have rows := (Change.depth_le_iff _ 122).1 changes (nesting n) (by simp [Change.rows])
  have cells := Json.object_depth_le_iff.1 rows ("tags", (nested n).toJson) List.mem_cons_self
  rw [depth_nested] at cells
  omega

/-- A row with sixty-two arrays in each other is written, but cannot be read. -/
theorem nested_unreadable :
    Document.decode "key" (document (nesting 61)).render desk = .error .unreadable := by
  have floats : ∀ x ∈ (document (nesting 61)).floats, x.ReadsBack := by
    rw [nesting_floats]
    exact fun x hx => absurd hx List.not_mem_nil
  exact Document.decode_of_not_depth "key" floats fun shallow =>
    absurd (nesting_depth 61 shallow) (by omega)

end Sample

end DraftLedger
