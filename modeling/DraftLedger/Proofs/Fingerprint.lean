import DraftLedger.Proofs.Cutting
import DraftLedger.Proofs.Sample
import DraftLedger.Proofs.TextBytes

/-!
# What a fingerprint tells

* `ChangeId.IsVersion7` : the identifiers that changes are given.
* `Script.revisions_append_inj` : the input of a fingerprint is read in one way.
* `Script.fingerprintInput_unambiguous` : the dialect, the revisions and the text are read off the
  input.
* `Script.CollisionFree` : inputs of which no two have the same digest.
* `Script.Compiles.revisions_of_fingerprint`, `Script.Compiles.eq_of_fingerprint` : scripts with the
  same fingerprint cover the same changes at the same times with the same statements.
-/

set_option autoImplicit false

namespace DraftLedger

/-- The identifier has the version that changes are given: 7. -/
def ChangeId.IsVersion7 (id : ChangeId) : Prop := (id.uuid.bytes.getD 6 0).toNat / 16 = 7

instance (id : ChangeId) : Decidable id.IsVersion7 := inferInstanceAs (Decidable (_ = _))

namespace Script

variable {a b : List Change} {x y : String}

/-- The seventh byte of a statement is a blank. -/
theorem utf8_of_opensWithVerb (h : Sql.OpensWithVerb x) : (utf8 x)[6]? = some 0x20 := by
  obtain ⟨verb, mem, rest, rfl⟩ := h
  rw [utf8_append]
  simp only [Sql.verbs, List.mem_cons, List.not_mem_nil, or_false] at mem
  rcases mem with rfl | rfl | rfl
  · rfl
  · rfl
  · rfl

/-! ## Revisions as bytes -/

theorem length_littleEndian (n x : Nat) : (littleEndian n x).length = n := by
  induction n generalizing x with
  | zero => rfl
  | succ n ih => simp [littleEndian, ih]

theorem littleEndian_injective {n x y : Nat} (hx : x < Nat.pow 256 n) (hy : y < Nat.pow 256 n)
    (h : littleEndian n x = littleEndian n y) : x = y := by
  induction n generalizing x y with
  | zero =>
    have hx : x < 1 := hx
    have hy : y < 1 := hy
    omega
  | succ n ih =>
    have hx : x < Nat.pow 256 n * 256 := hx
    have hy : y < Nat.pow 256 n * 256 := hy
    obtain ⟨low, high⟩ := List.cons.inj h
    have rest : x / 256 = y / 256 :=
      ih (Nat.div_lt_of_lt_mul (by omega)) (Nat.div_lt_of_lt_mul (by omega)) high
    have low : x % 256 = y % 256 := by
      have bytes := congrArg UInt8.toNat low
      rwa [UInt8.toNat_ofNat', UInt8.toNat_ofNat'] at bytes
    omega

theorem length_revisionBytes (c : Change) : (revisionBytes c).length = 28 := by
  simp [revisionBytes, c.id.uuid.length_eq, length_littleEndian]

theorem eq_of_revisionBytes {c c' : Change} (h : revisionBytes c = revisionBytes c') :
    c.id = c'.id ∧ c.updatedAt = c'.updatedAt := by
  unfold revisionBytes at h
  obtain ⟨front, counter⟩ := List.append_inj h (by
    simp only [List.length_append, length_littleEndian, c.id.uuid.length_eq, c'.id.uuid.length_eq])
  obtain ⟨bytes, wall⟩ := List.append_inj front (by rw [c.id.uuid.length_eq, c'.id.uuid.length_eq])
  constructor
  · obtain ⟨⟨⟨xs, _⟩⟩, _⟩ := c
    obtain ⟨⟨⟨ys, _⟩⟩, _⟩ := c'
    cases bytes
    rfl
  · have wall := littleEndian_injective c.updatedAt.wall.toNat_lt c'.updatedAt.wall.toNat_lt wall
    have counter :=
      littleEndian_injective c.updatedAt.counter.toNat_lt c'.updatedAt.counter.toNat_lt counter
    have wall := UInt64.toNat_inj.1 wall
    have counter := UInt32.toNat_inj.1 counter
    generalize c.updatedAt = a at wall counter ⊢
    generalize c'.updatedAt = b at wall counter ⊢
    obtain ⟨_, _⟩ := a
    obtain ⟨_, _⟩ := b
    cases wall
    cases counter
    rfl

theorem eq_of_revisions (h : a.map revisionBytes = b.map revisionBytes) :
    a.map (fun c => (c.id, c.updatedAt)) = b.map (fun c => (c.id, c.updatedAt)) := by
  induction a generalizing b with
  | nil =>
    cases b with
    | nil => rfl
    | cons c' rest' => cases h
  | cons c rest ih =>
    cases b with
    | nil => cases h
    | cons c' rest' =>
      obtain ⟨first, others⟩ := List.cons.inj h
      obtain ⟨id, time⟩ := eq_of_revisionBytes first
      simp only [List.map_cons, id, time, ih others]

/-- A revision is no start of a statement, because of the version of its identifier. -/
theorem revisionBytes_append_ne {c : Change} (version : c.id.IsVersion7) (rest : List UInt8)
    (opens : x = "" ∨ Sql.OpensWithVerb x) : revisionBytes c ++ rest ≠ utf8 x := by
  intro same
  rcases opens with rfl | verb
  · have length := congrArg List.length same
    simp [length_revisionBytes, utf8_empty] at length
  · have blank := utf8_of_opensWithVerb verb
    have here : (revisionBytes c ++ rest)[6]? = c.id.uuid.bytes[6]? := by
      rw [List.getElem?_append_left (by rw [length_revisionBytes]; decide), revisionBytes,
        List.append_assoc, List.getElem?_append_left (by rw [c.id.uuid.length_eq]; decide)]
    rw [← same, here] at blank
    rw [ChangeId.IsVersion7, List.getD_eq_getElem?_getD, blank] at version
    revert version
    decide

/-- Revisions with a text after them are read in one way. -/
theorem revisions_append_inj (ha : ∀ c ∈ a, c.id.IsVersion7) (hb : ∀ c ∈ b, c.id.IsVersion7)
    (hx : x = "" ∨ Sql.OpensWithVerb x) (hy : y = "" ∨ Sql.OpensWithVerb y)
    (eq : a.flatMap revisionBytes ++ utf8 x = b.flatMap revisionBytes ++ utf8 y) :
    a.map revisionBytes = b.map revisionBytes ∧ x = y := by
  induction a generalizing b with
  | nil =>
    cases b with
    | nil => exact ⟨rfl, utf8_injective (by simpa using eq)⟩
    | cons c rest =>
      have version := hb c List.mem_cons_self
      refine absurd ?_ (revisionBytes_append_ne version (rest.flatMap revisionBytes ++ utf8 y) hx)
      simpa using eq.symm
  | cons c rest ih =>
    cases b with
    | nil =>
      have version := ha c List.mem_cons_self
      refine absurd ?_ (revisionBytes_append_ne version (rest.flatMap revisionBytes ++ utf8 x) hy)
      simpa using eq
    | cons c' rest' =>
      simp only [List.flatMap_cons, List.append_assoc] at eq
      obtain ⟨first, others⟩ := List.append_inj eq
        (by rw [length_revisionBytes, length_revisionBytes])
      obtain ⟨revisions, text⟩ := ih (fun d hd => ha d (List.mem_cons_of_mem c hd))
        (fun d hd => hb d (List.mem_cons_of_mem c' hd)) others
      exact ⟨by rw [List.map_cons, List.map_cons, first, revisions], text⟩

/-! ## Dialects as bytes -/

/-- No name of a dialect is the start of another one: the first four bytes tell them apart. -/
theorem utf8_name_append_inj {d d' : Dialect} {xs ys : List UInt8}
    (h : utf8 d.name ++ xs = utf8 d'.name ++ ys) : d = d' ∧ xs = ys := by
  have start (d : Dialect) (xs : List UInt8) :
      (utf8 d.name ++ xs).take 4 = (utf8 d.name).take 4 :=
    List.take_append_of_le_length (by cases d <;> decide)
  have names : (utf8 d.name).take 4 = (utf8 d'.name).take 4 := by rw [← start d xs, h, start d' ys]
  have same : d = d' := by
    revert names
    cases d <;> cases d' <;> decide
  subst same
  exact ⟨rfl, List.append_cancel_left h⟩

/-! ## Scripts -/

/-- No two of the inputs have the same digest. -/
def CollisionFree (inputs : List (List UInt8)) : Prop :=
  ∀ u ∈ inputs, ∀ v ∈ inputs, Blake3.digest u = Blake3.digest v → u = v

theorem digest_eq_of_fingerprintOf {d d' : Dialect}
    (h : fingerprintOf d a x = fingerprintOf d' b y) :
    Blake3.digest (fingerprintInput d a x) = Blake3.digest (fingerprintInput d' b y) := by
  have digits := String.ofList_injective h
  have read := congrArg Text.ofHexBytes? digits
  rw [Text.ofHexBytes?_hexBytes, Text.ofHexBytes?_hexBytes] at read
  exact Option.some.inj read

variable {threshold threshold' : Nat} {keyColumns keyColumns' : KeyColumns} {d d' : Dialect}
  {scope scope' : Option Table} {changes changes' : List Change} {script script' : Script}

theorem Compiles.parts_of_input (h : Compiles keyColumns d scope changes script)
    (h' : Compiles keyColumns' d' scope' changes' script')
    (versions : ∀ c ∈ covered scope changes, c.id.IsVersion7)
    (versions' : ∀ c ∈ covered scope' changes', c.id.IsVersion7)
    (inputs : fingerprintInput d (covered scope changes) script.sql =
      fingerprintInput d' (covered scope' changes') script'.sql) :
    d = d' ∧ (covered scope changes).map revisionBytes = (covered scope' changes').map revisionBytes ∧
      script.sql = script'.sql := by
  unfold fingerprintInput at inputs
  rw [List.append_assoc, List.append_assoc] at inputs
  obtain ⟨dialect, rest⟩ := utf8_name_append_inj inputs
  exact ⟨dialect, revisions_append_inj versions versions' h.sql_opens h'.sql_opens rest⟩

/-- The input of the fingerprint of a script has no separators and no counts, and still tells the
dialect, the changes with their times, and the text. -/
theorem fingerprintInput_unambiguous
    (h : compile threshold keyColumns d scope changes = .ok script)
    (h' : compile threshold' keyColumns' d' scope' changes' = .ok script')
    (versions : ∀ c ∈ covered scope changes, c.id.IsVersion7)
    (versions' : ∀ c ∈ covered scope' changes', c.id.IsVersion7)
    (inputs : fingerprintInput d (covered scope changes) script.sql =
      fingerprintInput d' (covered scope' changes') script'.sql) :
    d = d' ∧
      (covered scope changes).map (fun c => (c.id, c.updatedAt)) =
        (covered scope' changes').map (fun c => (c.id, c.updatedAt)) ∧
      script.sql = script'.sql := by
  obtain ⟨dialect, revisions, text⟩ := (compiles_of_compile h).parts_of_input
    (compiles_of_compile h') versions versions' inputs
  exact ⟨dialect, eq_of_revisions revisions, text⟩

/-- Scripts with the same fingerprint cover the same revisions with the same statements. -/
theorem Compiles.revisions_of_fingerprint (h : Compiles keyColumns d scope changes script)
    (h' : Compiles keyColumns' d scope' changes' script')
    (versions : ∀ c ∈ changes, c.id.IsVersion7) (versions' : ∀ c ∈ changes', c.id.IsVersion7)
    (noCollision : Blake3.digest (fingerprintInput d (covered scope changes) script.sql) =
        Blake3.digest (fingerprintInput d (covered scope' changes') script'.sql) →
      fingerprintInput d (covered scope changes) script.sql =
        fingerprintInput d (covered scope' changes') script'.sql)
    (same : script.fingerprint = script'.fingerprint) :
    (covered scope changes).map revisionBytes = (covered scope' changes').map revisionBytes ∧
      script.statements = script'.statements := by
  rw [h.fingerprint, h'.fingerprint] at same
  obtain ⟨-, revisions, text⟩ := h.parts_of_input h'
    (fun c hc => versions c ((covered_sublist _ _).subset hc))
    (fun c hc => versions' c ((covered_sublist _ _).subset hc))
    (noCollision (digest_eq_of_fingerprintOf same))
  rw [h.sql, h'.sql] at text
  exact ⟨revisions, joined_inj h.statements_sealed h'.statements_sealed text⟩

/-- Scripts with the same fingerprint cover the same changes with the same statements. -/
theorem Compiles.eq_of_fingerprint (h : Compiles keyColumns d scope changes script)
    (h' : Compiles keyColumns' d scope' changes' script')
    (versions : ∀ c ∈ changes, c.id.IsVersion7) (versions' : ∀ c ∈ changes', c.id.IsVersion7)
    (noCollision : Blake3.digest (fingerprintInput d (covered scope changes) script.sql) =
        Blake3.digest (fingerprintInput d (covered scope' changes') script'.sql) →
      fingerprintInput d (covered scope changes) script.sql =
        fingerprintInput d (covered scope' changes') script'.sql)
    (same : script.fingerprint = script'.fingerprint) :
    script.changeIds = script'.changeIds ∧ script.statements = script'.statements := by
  obtain ⟨revisions, statements⟩ :=
    h.revisions_of_fingerprint h' versions versions' noCollision same
  rw [h.changeIds, h'.changeIds]
  have ids := congrArg (List.map Prod.fst) (eq_of_revisions revisions)
  simp only [List.map_map, Function.comp_def] at ids
  exact ⟨ids, statements⟩

end Script

/-! ## The same script of two lists -/

namespace Sample

/-- Two changes of one table with an insertion into another one between them. -/
def interleaved : List Change := [breakout, { breakout with id := id 3, table := items }, cleanup]

/-- The script of the two changes alone and the one of their table in the longer list are from one
input. -/
theorem fingerprintInput_unambiguous_interleaved :
    ∃ script script',
      Script.compile 5 Dict.empty .mysql none [breakout, cleanup] = .ok script ∧
      Script.compile 0 Dict.empty .mysql (some quoting) interleaved = .ok script' ∧
      script.warnings ≠ script'.warnings ∧
      [breakout, cleanup].map (fun c => (c.id, c.updatedAt)) =
        (Script.covered (some quoting) interleaved).map (fun c => (c.id, c.updatedAt)) ∧
      script.sql = script'.sql := by
  have compiled : ∃ script script',
      Script.compile 5 Dict.empty .mysql none [breakout, cleanup] = .ok script ∧
      Script.compile 0 Dict.empty .mysql (some quoting) interleaved = .ok script' ∧
      script.warnings ≠ script'.warnings ∧ script.sql = script'.sql :=
    ⟨_, _, rfl, rfl, by decide, rfl⟩
  obtain ⟨script, script', h, h', differ, text⟩ := compiled
  have included : Script.covered (some quoting) interleaved = [breakout, cleanup] := rfl
  have versions : ∀ c ∈ [breakout, cleanup], c.id.IsVersion7 := by decide
  obtain ⟨-, revisions, same⟩ := Script.fingerprintInput_unambiguous h h' versions
    (by rw [included]; exact versions) (by rw [included, text]; rfl)
  exact ⟨script, script', h, h', differ, revisions, same⟩

end Sample

end DraftLedger
