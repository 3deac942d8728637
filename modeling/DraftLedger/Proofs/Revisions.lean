import DraftLedger.Proofs.Chronicle
import Mathlib.Logic.Relation

/-!
# What a fingerprint does not tell

A fingerprint covers revisions and statements.  Two scripts of one ledger with the same fingerprint
cover the same changes, with one exception: an insertion that gets its key keeps its revision, and its
statement need not show the key.  If the store fails, a session may be lost and come back as its
document is read, which is not always as it was written.

* `Change.Drifts`, `Change.Alike` : what happens to a change without a new revision.
* `Change.unassigned` : a change but for the key that it may be assigned.
* `History.covered_of_fingerprint` : what scripts with the same fingerprint cover.
* `Sample.keyed_unseen` : an insertion with and without its key, in scripts with the same fingerprint.
-/

set_option autoImplicit false

namespace DraftLedger

/-! ## Versions of one revision -/

namespace Change

variable {c c' : Change}

/-- The second change is what the first one is read back as, or the first one as an insertion that has
got a key. -/
inductive Drifts : Change → Change → Prop
  | readBack {c c' : Change} (reads : c.ReadsAs c') : Drifts c c'
  | keyed {c : Change} (key : Row) (insertion : c.kind = .insert) :
      Drifts c { c with primaryKey := some key }

/-- The changes are one change of one revision, but for documents that were read back and for keys of
insertions. -/
structure Alike (c c' : Change) : Prop where
  revision : c.SameRevision c'
  kind : c.kind = c'.kind
  table : c.table = c'.table
  timestamp : c.timestamp = c'.timestamp
  drift : Relation.EqvGen Drifts c c'

theorem alike_equivalence : Equivalence Alike where
  refl c := ⟨.refl c, rfl, rfl, rfl, .refl c⟩
  symm h := ⟨h.revision.symm, h.kind.symm, h.table.symm, h.timestamp.symm, h.drift.symm⟩
  trans h h' := ⟨h.revision.trans h'.revision, h.kind.trans h'.kind, h.table.trans h'.table,
    h.timestamp.trans h'.timestamp, h.drift.trans _ _ _ h'.drift⟩

theorem Drifts.alike (h : c.Drifts c') : c.Alike c' := by
  have drift : Relation.EqvGen Drifts c c' := .rel _ _ h
  cases h with
  | readBack reads =>
    obtain ⟨-, kind, table, -⟩ := reads.spec
    exact ⟨reads.sameRevision, kind.symm, table.symm, reads.times.1.symm, drift⟩
  | keyed key insertion => exact ⟨⟨rfl, rfl⟩, rfl, rfl, rfl, drift⟩

/-- The change without the key that it has been given as an insertion. -/
def unassigned (c : Change) : Change :=
  if c.kind = .insert then { c with primaryKey := none } else c

theorem unassigned_of_keyed {key : Row} (insertion : c.kind = .insert) :
    ({ c with primaryKey := some key } : Change).unassigned = c.unassigned := by
  simp only [unassigned, insertion, if_true]

end Change

namespace Ledger

theorem alike_tolerates : Tolerates Change.Alike True where
  equivalence := Change.alike_equivalence
  readBack _ _ _ reads := (Change.Drifts.readBack reads).alike

theorem alike_toleratesKeys (m : Engine.Move) : ToleratesKeys Change.Alike m :=
  fun _ _ key _ _ insertion => (Change.Drifts.keyed key insertion).alike

theorem unassigned_tolerates : Tolerates (fun c c' => c.unassigned = c'.unassigned) False where
  equivalence := ⟨fun _ => rfl, Eq.symm, Eq.trans⟩
  readBack := False.elim

theorem unassigned_toleratesKeys (m : Engine.Move) :
    ToleratesKeys (fun c c' => c.unassigned = c'.unassigned) m :=
  fun _ _ _ _ _ insertion => (Change.unassigned_of_keyed insertion).symm

theorem eq_tolerates : Tolerates Eq False where
  equivalence := eq_equivalence
  readBack := False.elim

end Ledger

/-! ## Lists of revisions -/

theorem forall₂_of_revisions {R : Change → Change → Prop} {changes changes' : List Change}
    (h : changes.map Script.revisionBytes = changes'.map Script.revisionBytes)
    (related : ∀ c ∈ changes, ∀ c' ∈ changes', c.SameRevision c' → R c c') :
    List.Forall₂ R changes changes' := by
  induction changes generalizing changes' with
  | nil =>
    cases changes' with
    | nil => exact .nil
    | cons c' rest' => cases h
  | cons c rest ih =>
    cases changes' with
    | nil => cases h
    | cons c' rest' =>
      obtain ⟨first, others⟩ := List.cons.inj h
      refine .cons ?_ (ih others fun d hd d' hd' => ?_)
      · exact related c List.mem_cons_self c' List.mem_cons_self (Script.eq_of_revisionBytes first)
      · exact related d (List.mem_cons_of_mem c hd) d' (List.mem_cons_of_mem c' hd')

/-! ## Runs -/

namespace History

open Engine Ledger

variable {h h' : History} {m : Move}

/-- The store goes on answering, and no insertion is assigned a key. -/
def Unkeyed (h : History) (m : Move) : Prop :=
  h.Served m ∧ ∀ s id key, m ≠ .assignPrimaryKey s id key

theorem Unbroken.alike (unbroken : h.Unbroken m) :
    h.Unbroken m ∧ ToleratesKeys Change.Alike m ∧
      (True ∨ ∀ refusal, m = .storage refusal → refusal = none) :=
  ⟨unbroken, alike_toleratesKeys m, .inl trivial⟩

theorem Served.unassigned (served : h.Served m) :
    h.Unbroken m ∧ ToleratesKeys (fun c c' => c.unassigned = c'.unassigned) m ∧
      (False ∨ ∀ refusal, m = .storage refusal → refusal = none) :=
  ⟨served.1, unassigned_toleratesKeys m, .inr served.2⟩

theorem Unkeyed.eq (unkeyed : h.Unkeyed m) :
    h.Unbroken m ∧ ToleratesKeys Eq m ∧
      (False ∨ ∀ refusal, m = .storage refusal → refusal = none) :=
  ⟨unkeyed.1.1, fun s id key assigns => absurd assigns (unkeyed.2 s id key), .inr unkeyed.1.2⟩

theorem Reaches.sound_distinct (reaches : Reaches Unbroken h h') (sound : h.Sound)
    (distinct : h.engine.ledger.Distinct []) : h'.Sound ∧ h'.engine.ledger.Distinct [] :=
  reaches.invariant (p := fun h => h.Sound ∧ h.engine.ledger.Distinct []) ⟨sound, distinct⟩
    fun _ _ before unbroken => ⟨before.1.step unbroken.1,
      before.1.distinct_step before.2 (List.nil_subset _) unbroken.1⟩

theorem Sound.versions_changes (sound : h.Sound) (s : SessionId) :
    ∀ c ∈ h.engine.ledger.changes s, c.id.IsVersion7 := fun _ hc =>
  sound.versions _ (sound.issued_of_has .memory (List.mem_map_of_mem hc))

/-- If scripts of one session have the same fingerprint at two moments of a run of one ledger, then
they have the same statements and cover the same changes, but for documents that were read back and
for keys of insertions.  If the store does not fail, they cover the same changes but for keys of
insertions, and the very same ones if no key is assigned in between. -/
theorem covered_of_fingerprint {settings : Settings} {store : Store} {database : Database}
    {e : Engine} {issued : List ChangeId} {s : SessionId} {d : Dialect} {scope : Option Table}
    {script script' : Script} (opened : Engine.opened settings store database = .ok e)
    (identified : e.ledger.Identified issued) (before : Reaches Unbroken (start e issued) h)
    (after : Reaches Unbroken h h') (given : (h.engine.generate s d scope).1 = .ok script)
    (given' : (h'.engine.generate s d scope).1 = .ok script')
    (noCollision : Script.CollisionFree
      (h.engine.compileInputs s d scope ++ h'.engine.compileInputs s d scope))
    (same : script.fingerprint = script'.fingerprint) :
    let covered := Script.covered scope (h.engine.ledger.changes s)
    let covered' := Script.covered scope (h'.engine.ledger.changes s)
    script.statements = script'.statements ∧ List.Forall₂ Change.Alike covered covered' ∧
      (store.refusal = none → Reaches Served (start e issued) h →
        (Reaches Served h h' → covered.map Change.unassigned = covered'.map Change.unassigned) ∧
          (Reaches Unkeyed h h' → covered = covered')) := by
  have compiled : Script.compile h.engine.settings.threshold h.engine.ledger.keyColumns d scope
      (h.engine.ledger.changes s) = .ok script := given
  have compiled' : Script.compile h'.engine.settings.threshold h'.engine.ledger.keyColumns d scope
      (h'.engine.ledger.changes s) = .ok script' := given'
  obtain ⟨sound, distinct⟩ :=
    before.sound_distinct (sound_start opened identified) (distinct_start opened identified)
  obtain ⟨sound', -⟩ := after.sound_distinct sound distinct
  rw [compileInputs_of_compile compiled, compileInputs_of_compile compiled'] at noCollision
  obtain ⟨revisions, statements⟩ :=
    (Script.compiles_of_compile compiled).revisions_of_fingerprint
      (Script.compiles_of_compile compiled') (sound.versions_changes s) (sound'.versions_changes s)
      (noCollision _ (by simp) _ (by simp)) same
  have covered {R : Change → Change → Prop} (related : ∀ c ∈ h.engine.ledger.changes s,
      ∀ c' ∈ h'.engine.ledger.changes s, c.SameRevision c' → R c c') :
      List.Forall₂ R (Script.covered scope (h.engine.ledger.changes s))
        (Script.covered scope (h'.engine.ledger.changes s)) :=
    forall₂_of_revisions revisions fun c hc c' hc' => related c ((Script.covered_sublist _ _).subset hc)
      c' ((Script.covered_sublist _ _).subset hc')
  refine ⟨statements, ?_, fun answers served => ⟨fun served' => ?_, fun unkeyed => ?_⟩⟩
  · obtain ⟨past, -, chronicle⟩ := before.chronicle alike_tolerates (fun _ _ => Unbroken.alike)
      (chronicle_start opened identified alike_tolerates (.inl trivial))
    obtain ⟨past', more, chronicle'⟩ :=
      after.chronicle alike_tolerates (fun _ _ => Unbroken.alike) chronicle
    exact covered fun c hc c' hc' => chronicle.related alike_tolerates chronicle' more hc hc'
  · obtain ⟨past, -, chronicle⟩ := served.chronicle unassigned_tolerates
      (fun _ _ => Served.unassigned)
      (chronicle_start opened identified unassigned_tolerates (.inr answers))
    obtain ⟨past', more, chronicle'⟩ :=
      served'.chronicle unassigned_tolerates (fun _ _ => Served.unassigned) chronicle
    have related := covered fun c hc c' hc' =>
      chronicle.related unassigned_tolerates chronicle' more hc hc'
    rw [← List.forall₂_eq_eq_eq, List.forall₂_map_left_iff, List.forall₂_map_right_iff]
    exact related
  · -- The changes that are live at the first moment begin a chronicle of their own.
    obtain ⟨past, -, chronicle⟩ := served.chronicle unassigned_tolerates
      (fun _ _ => Served.unassigned)
      (chronicle_start opened identified unassigned_tolerates (.inr answers))
    have first := chronicle.again distinct
    obtain ⟨past', more, second⟩ := unkeyed.chronicle eq_tolerates (fun _ _ => Unkeyed.eq) first
    have related := covered fun c hc c' hc' => first.related eq_tolerates second more hc hc'
    rwa [List.forall₂_eq_eq_eq] at related

theorem Reaches.mono {allowed allowed' : History → Move → Prop} (reaches : Reaches allowed h h')
    (more : ∀ h m, allowed h m → allowed' h m) : Reaches allowed' h h' := by
  induction reaches with
  | refl => exact .refl
  | step m _ may ih => exact .step m ih (more _ m may)

theorem collisionFree_of_eq {inputs : List (List UInt8)} (input : List UInt8)
    (h : ∀ u ∈ inputs, u = input) : Script.CollisionFree inputs := fun u hu v hv _ =>
  (h u hu).trans (h v hv).symm

end History

namespace Sample

open Engine History

theorem renamed_served : Reaches Served (start engine []) renamed :=
  .step _ (.step _ .refl ⟨⟨trivial, nofun⟩, nofun⟩) ⟨⟨⟨List.not_mem_nil, rfl⟩, nofun⟩, nofun⟩

/-- A row is inserted as well, and the insertion is taken back. -/
def reconsidered : History :=
  (renamed.step (.record desk (.insert items (named "c") none) (id 2) 0)).step (.remove desk (id 2))

theorem reconsidered_unkeyed : Reaches Unkeyed renamed reconsidered :=
  .step _ (.step _ .refl ⟨⟨⟨⟨by decide, rfl⟩, nofun⟩, nofun⟩, nofun⟩)
    ⟨⟨⟨trivial, nofun⟩, nofun⟩, nofun⟩

/-- The renaming as it is staged. -/
def rename : Change :=
  ⟨id 1, .update, items, none, some (item 1 "a"), some (named "b"), ⟨0, 1⟩, ⟨0, 1⟩⟩

theorem renamed_changes : renamed.engine.ledger.changes desk = [rename] := rfl

theorem reconsidered_changes : reconsidered.engine.ledger.changes desk = [rename] := rfl

/-- After the insertion has been taken back the script is the same one as before, and so is what it
covers. -/
theorem covered_of_fingerprint_reconsidered :
    reconsidered.engine.ledger.clock ≠ renamed.engine.ledger.clock ∧
      ∃ script, (renamed.engine.generate desk .postgres none).1 = .ok script ∧
        (reconsidered.engine.generate desk .postgres none).1 = .ok script ∧
        Script.covered none (renamed.engine.ledger.changes desk) =
          Script.covered none (reconsidered.engine.ledger.changes desk) := by
  obtain ⟨script, compiled, -, -⟩ := renamed_compiles
  have given : (renamed.engine.generate desk .postgres none).1 = .ok script := compiled
  have settings : renamed.engine.settings = Settings.default := rfl
  have settings' : reconsidered.engine.settings = Settings.default := rfl
  have columns : renamed.engine.ledger.keyColumns = Dict.empty := rfl
  have columns' : reconsidered.engine.ledger.keyColumns = Dict.empty := rfl
  have compiled' : Script.compile reconsidered.engine.settings.threshold
      reconsidered.engine.ledger.keyColumns .postgres none
      (reconsidered.engine.ledger.changes desk) = .ok script := by
    rw [settings', ← settings, columns', ← columns, reconsidered_changes, ← renamed_changes]
    exact compiled
  have noCollision : Script.CollisionFree (renamed.engine.compileInputs desk .postgres none ++
      reconsidered.engine.compileInputs desk .postgres none) := by
    rw [compileInputs_of_compile compiled, compileInputs_of_compile compiled',
      reconsidered_changes, renamed_changes]
    exact collisionFree_of_eq _ fun u hu => by simpa using hu
  have unbroken : Reaches Unbroken renamed reconsidered :=
    reconsidered_unkeyed.mono fun _ _ unkeyed => unkeyed.1.1
  obtain ⟨-, -, answering⟩ := covered_of_fingerprint engine_opened engine_identified
    (renamed_served.mono fun _ _ served => served.1) unbroken given compiled' noCollision rfl
  exact ⟨by decide, script, given, compiled', (answering rfl renamed_served).2 reconsidered_unkeyed⟩

/-- A row is inserted without a key. -/
def entered : History :=
  ((start engine []).step (.activate desk)).step
    (.record desk (.insert items (named "a") none) (id 1) 0)

/-- The row gets the key that the database generated for it. -/
def keyed : History := entered.step (.assignPrimaryKey desk (id 1) (key 7))

theorem entered_served : Reaches Served (start engine []) entered :=
  .step _ (.step _ .refl ⟨⟨trivial, nofun⟩, nofun⟩) ⟨⟨⟨List.not_mem_nil, rfl⟩, nofun⟩, nofun⟩

/-- The insertion with a key or without one. -/
def entry (key : Option Row) : Change :=
  ⟨id 1, .insert, items, key, none, some (named "a"), ⟨0, 1⟩, ⟨0, 1⟩⟩

theorem entered_changes : entered.engine.ledger.changes desk = [entry none] := rfl

theorem keyed_changes : keyed.engine.ledger.changes desk = [entry (some (key 7))] := rfl

/-- The scripts for MySQL before and after the insertion gets its key have the same fingerprint, while
the covered change is not the same: its key is new, its time is not. -/
theorem keyed_unseen :
    Reaches Served (start engine []) entered ∧ Reaches Served entered keyed ∧
      ∃ script script', (entered.engine.generate desk .mysql none).1 = .ok script ∧
        (keyed.engine.generate desk .mysql none).1 = .ok script' ∧
        Script.CollisionFree (entered.engine.compileInputs desk .mysql none ++
          keyed.engine.compileInputs desk .mysql none) ∧
        script.fingerprint = script'.fingerprint ∧
        Script.covered none (entered.engine.ledger.changes desk) = [entry none] ∧
        Script.covered none (keyed.engine.ledger.changes desk) = [entry (some (key 7))] ∧
        (entry none).primaryKey ≠ (entry (some (key 7))).primaryKey := by
  obtain ⟨script, compiled, sql⟩ : ∃ script,
      Script.compile entered.engine.settings.threshold entered.engine.ledger.keyColumns .mysql none
        [entry none] = .ok script ∧ script.sql = "INSERT INTO `shop`.`items` (`name`) VALUES ('a');" :=
    ⟨_, rfl, rfl⟩
  obtain ⟨script', compiled', sql'⟩ : ∃ script,
      Script.compile keyed.engine.settings.threshold keyed.engine.ledger.keyColumns .mysql none
        [entry (some (key 7))] = .ok script ∧
          script.sql = "INSERT INTO `shop`.`items` (`name`) VALUES ('a');" :=
    ⟨_, rfl, rfl⟩
  have input : Script.fingerprintInput .mysql [entry none] script.sql =
      Script.fingerprintInput .mysql [entry (some (key 7))] script'.sql := by
    rw [sql, sql']
    rfl
  have same : script.fingerprint = script'.fingerprint := by
    rw [(Script.compiles_of_compile compiled).fingerprint,
      (Script.compiles_of_compile compiled').fingerprint]
    exact congrArg (fun bytes => String.ofList (Text.hexBytes Text.hexDigit (Blake3.digest bytes)))
      input
  rw [← entered_changes] at compiled
  rw [← keyed_changes] at compiled'
  refine ⟨entered_served, .step _ .refl ⟨⟨trivial, nofun⟩, nofun⟩, script, script', compiled,
    compiled', ?_, same, rfl, rfl, nofun⟩
  rw [compileInputs_of_compile compiled, compileInputs_of_compile compiled', entered_changes,
    keyed_changes]
  refine collisionFree_of_eq (Script.fingerprintInput .mysql [entry none] script.sql) fun u hu => ?_
  rcases List.mem_append.1 hu with hu | hu
  · exact List.mem_singleton.1 hu
  · exact (List.mem_singleton.1 hu).trans input.symm

end Sample

end DraftLedger
