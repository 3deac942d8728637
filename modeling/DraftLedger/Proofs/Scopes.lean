import DraftLedger.Proofs.Atomicity
import DraftLedger.Proofs.OtherTables
import DraftLedger.Proofs.Partition

/-!
# Scripts of one table stay

A script of one table is a part of the script of all tables, and it stays applicable while nothing but
other tables is worked on.  An empty script is an exception: a session that has nothing staged leaves
memory when it is given back, and from then on is what the store has of it, which may be more than
nothing if the store did not take the last write.  Changes of two tables that have one identifier, as a
document in the store may have them, are the other one: the apply of one of them takes out both.

* `Ledger.Guards`, `Ledger.Passes.lasts` : when nothing comes back to a table from the store.
* `History.Stays` : the script of a table is what it was, and is applicable.
* `History.Upholds` : the invariant.
* `History.scopes_apart` : the scripts of the tables, from any point of any run on.
-/

set_option autoImplicit false

namespace DraftLedger

namespace Ledger

variable {l l' : Ledger} {s : SessionId} {table : Table}

/-- The session is in memory, or the store has no change of it on the table. -/
def Minds (s : SessionId) (table : Table) (l : Ledger) : Prop :=
  (l.sessions.get? s).isSome = true ∨ ((l.keptChanges s).filter fun c => c.table = table) = []

/-- The session is in memory, or has nothing on the table. -/
def Holding (s : SessionId) (table : Table) (l : Ledger) : Prop :=
  (l.sessions.get? s).isSome = true ∨ l.changesOn s table = []

theorem Minds.changesOn (minds : Minds s table l) (gone : l.sessions.get? s = none) :
    l.changesOn s table = [] := by
  rcases minds with mem | none
  · rw [gone] at mem
    cases mem
  · rw [Ledger.changesOn, changes, session, gone, recovered_changes]
    split
    · exact none
    · rfl

/-- Nothing comes back to the table from the store: the session has something there and stays in memory, or
the store has nothing there, or it has nothing of any session without changes. -/
inductive Guards (s : SessionId) (table : Table) (l l' : Ledger) : Prop
  | holds (some : l.changesOn s table ≠ [])
  | minds (h : Minds s table l')
  | settles (answers : l.store.refusal = none) (answers' : l'.store.refusal = none)
      (settled : l.Settled s)

theorem Passes.lasts (passes : Passes s table l l') (holding : Holding s table l)
    (guards : Guards s table l l') :
    l'.changesOn s table = l.changesOn s table ∧ Holding s table l' := by
  cases passes with
  | sameOn same =>
    exact ⟨same.changes, holding.imp same.mem fun none => same.changes.trans none⟩
  | absent none gone settled =>
    have none : l.changesOn s table = [] := holding.elim none id
    have none' : l'.changesOn s table = [] := by
      cases guards with
      | holds some => exact absurd none some
      | minds minds => exact minds.changesOn gone
      | settles answers answers' before => exact (settled answers answers' before).trans none
    exact ⟨none'.trans none.symm, .inr none'⟩

theorem visit_holding (l : Ledger) (s : SessionId) (table : Table) : Holding s table (l.visit s) := by
  unfold visit
  split
  · next vacant =>
    have none : l.changes s = [] := by
      simp only [Session.isVacant, Bool.and_eq_true, List.isEmpty_iff] at vacant
      exact vacant.2
    exact .inr (by rw [Ledger.changesOn, none]; rfl)
  · exact .inl (by rw [get?_load]; rfl)

theorem session_of_document {d : Document} (entry : l.raw? d.session = some d.render)
    (gone : l.sessions.get? d.session = none) (answers : l.store.refusal = none)
    (version : d.version.toNat = documentVersion) (plain : d.floats = [])
    (same : d.withOneNaN.changes = d.changes) (depth : d.toJson.depth ≤ Json.depthLimit) :
    l.session d.session = ⟨d.active, false, d.changes⟩ := by
  have entry : l.store.entries.get? _ = some d.render := entry
  have back := Document.decode_of_depth (Document.key l.space d.session) version
    (fun x mem => absurd (plain ▸ mem) List.not_mem_nil) depth
  rw [session, gone, ← same]
  simp only [recovered_eq, if_pos answers, kept?, entry, back]
  rfl

theorem settled_onStore {store : Store} (answers : store.refusal = none) (space : String)
    (s : SessionId) : (onStore store space).Settled s := by
  intro none
  have recovered : (onStore store space).changes s = (onStore store space).keptChanges s :=
    (recovered_changes _ s).trans (if_pos answers)
  exact recovered.symm.trans none

end Ledger

namespace Engine

theorem generate_of_compile {e : Engine} {s : SessionId} {d : Dialect} {scope : Option Table}
    {script : Script}
    (compiled : Script.compile e.settings.threshold e.ledger.keyColumns d scope
      (e.ledger.changes s) = .ok script) : (e.generate s d scope).1 = .ok script := compiled

/-- When an empty script is applied, a session of which there is nothing to know leaves memory. -/
theorem startApply_empty {e : Engine} (request : Apply.Request) {script : Script} (id : ApplyId)
    (idle : e.isApplying request.session = false) (confirmed : request.isConfirmed = true)
    (vacant : (e.ledger.session request.session).isVacant = true)
    (current : e.checkCurrent request.session script = .ok ()) (empty : script.isEmpty = true) :
    (e.perform (.startApply request script id)).ledger =
      { e.ledger.load request.session with
          sessions := (e.ledger.load request.session).sessions.erase request.session } := by
  have free : e.isFrozen request.session = false := by
    simp only [Session.isVacant, Bool.and_eq_true, Bool.not_eq_true'] at vacant
    exact vacant.1.2
  have claimed := claim_of_free id free
  have ledger : (e.claimed request.session id).ledger = (e.ledger.load request.session).put
      request.session { e.ledger.session request.session with frozen := true } := rfl
  have same := (checkCurrent_claimed ledger rfl script).trans current
  have back : { { e.ledger.session request.session with frozen := true } with frozen := false } =
      e.ledger.session request.session := by
    rw [← show _ = false from free]
    rfl
  simp only [perform, startApply, idle, confirmed, claimed, same, empty, Bool.not_true,
    Bool.false_eq_true, if_false, if_true, (release_spec _ _ _ _).2.1]
  rw [ledger]
  simp only [Ledger.unfreeze, Ledger.put, Dict.get?_insert, if_true, back, vacant,
    Dict.erase_insert]

end Engine

namespace History

open Engine Ledger

variable {h h' : History} {m : Move} {s : SessionId} {table : Table} {script : Script}

/-- The session gets the script again, and it is not stale. -/
structure Stays (s : SessionId) (script : Script) (h : History) : Prop where
  again : (h.engine.generate s script.dialect script.scope).1 = .ok script
  current : h.engine.checkCurrent s script = .ok ()

/-- The store answers after the move, if it answered before. -/
def Stored (allowed : History → Move → Prop) (h : History) (m : Move) : Prop :=
  allowed h m ∧ ∀ refusal, m = .storage refusal → refusal = none

/-- The move concerns other tables, and after it the session is in memory, or the store has nothing of it
on this one. -/
def Minding (s : SessionId) (table : Table) (h : History) (m : Move) : Prop :=
  h.Elsewhere s table m ∧ Minds s table (h.step m).engine.ledger

/-- The script of a table is what the session gets, and the session is in memory unless it has nothing on
the table. -/
structure Upholds (s : SessionId) (table : Table) (script : Script) (h : History) : Prop where
  filed : h.Filed
  compiled : Script.compile h.engine.settings.threshold h.engine.ledger.keyColumns script.dialect
    (some table) (h.engine.ledger.changes s) = .ok script
  holding : Holding s table h.engine.ledger

theorem Upholds.stays (upholds : h.Upholds s table script) : h.Stays s script := by
  have target := (Script.compiles_of_compile upholds.compiled).target.2
  have again : Script.compile h.engine.settings.threshold h.engine.ledger.keyColumns script.dialect
      script.scope (h.engine.ledger.changes s) = .ok script := by
    rw [target]
    exact upholds.compiled
  exact ⟨again, checkCurrent_of_compile again⟩

theorem Upholds.changesOn_ne_nil (upholds : h.Upholds s table script)
    (nonempty : script.isEmpty = false) : h.engine.ledger.changesOn s table ≠ [] := by
  intro none
  have statements := (Script.compiles_of_compile upholds.compiled).statements
  have covered : Script.covered (some table) (h.engine.ledger.changes s) = [] := none
  rw [covered] at statements
  rw [Script.isEmpty, ← Except.ok.inj statements] at nonempty
  cases nonempty

theorem Upholds.step (upholds : h.Upholds s table script) (elsewhere : h.Elsewhere s table m)
    (guards : Guards s table h.engine.ledger (h.step m).engine.ledger) :
    (h.step m).Upholds s table script := by
  obtain ⟨same, holding⟩ := (upholds.filed.passes elsewhere).lasts upholds.holding guards
  have settings := ((h.engine.perform_turn m).space upholds.filed.space).1
  have part : Script.covered (some table) (h.engine.ledger.changes s) =
      Script.covered (some table) ((h.step m).engine.ledger.changes s) := same.symm
  have compiled := Script.compile_congr part elsewhere.keyColumns.symm h.engine.settings.threshold
    script.dialect
  refine ⟨upholds.filed.step elsewhere.1, ?_, holding⟩
  rw [← upholds.compiled, compiled, ← settings]
  rfl

theorem upholds_given (filed : h.Filed) {d : Dialect}
    (generated : (h.engine.generate s d (some table)).1 = .ok script) :
    (h.step (.generate s d (some table))).Upholds s table script := by
  have compiled : Script.compile h.engine.settings.threshold h.engine.ledger.keyColumns d
      (some table) (h.engine.ledger.changes s) = .ok script := generated
  have visited := h.engine.ledger.visit_loaded s
  have ledger := h.step_generate_ledger s d (some table)
  refine ⟨filed.step trivial, ?_, ledger ▸ visit_holding _ s table⟩
  rw [ledger, visited.keyColumns, visited.changes, (Script.compiles_of_compile compiled).target.1]
  exact compiled

/-! ## Runs -/

theorem Reaches.upholds {allowed : History → Move → Prop} {P : History → Prop}
    (reaches : Reaches allowed h h') (upholds : h.Upholds s table script) (first : P h)
    (next : ∀ h m, h.Upholds s table script → P h → allowed h m → h.Elsewhere s table m ∧
      Guards s table h.engine.ledger (h.step m).engine.ledger ∧ P (h.step m)) :
    h'.Upholds s table script := by
  have both : h'.Upholds s table script ∧ P h' := by
    refine reaches.invariant (p := fun h => h.Upholds s table script ∧ P h) ⟨upholds, first⟩ ?_
    rintro h m ⟨upholds, before⟩ may
    obtain ⟨elsewhere, guards, after⟩ := next h m upholds before may
    exact ⟨upholds.step elsewhere guards, after⟩
  exact both.1

theorem settled_step {k : Listing} (tracked : h.engine.ledger.Tracked Settled k)
    (answering : ∀ refusal, m = .storage refusal → refusal = none) :
    (h.step m).engine.ledger.Tracked Settled k := by
  refine (h.engine.perform_turn m).tracked settled_tracks tracked answering fun _ => ?_
  exact ⟨tracked.answers, tracked.listing, settled_onStore tracked.answers _⟩

/-- The scripts of the tables keep apart.

* The script of one table is a part of the script of all tables, and is there when that one is.
* The statements of two lists, one behind the other, are those of the first one and then those of the second.
* The script of a table depends on the changes and the key columns of the table alone.
* From any point of any run on, a script of a table that is not empty stays what it was while other tables
  are worked on, whatever the store does.
* So does an empty one, as long as the session is in memory or the store has nothing of it on the table, and
  as long as the store takes every write. -/
theorem scopes_apart {settings : Settings} {store : Store} {database : Database} {e : Engine}
    {issued : List ChangeId} {d : Dialect}
    (opened : Engine.opened settings store database = .ok e)
    (identified : e.ledger.Identified issued) (reaches : Reaches Fresh (start e issued) h)
    (generated : (h.engine.generate s d (some table)).1 = .ok script) :
    (∀ (threshold : Nat) (keyColumns : KeyColumns) (d : Dialect) (changes : List Change)
        (whole : Script), Script.compile threshold keyColumns d none changes = .ok whole →
      ∀ table, ∃ part, Script.compile threshold keyColumns d (some table) changes = .ok part ∧
        whole.PartOf changes table part) ∧
    (∀ (threshold : Nat) (keyColumns : KeyColumns) (d : Dialect) (scope : Option Table)
        (front back : List Change) (statements : List String),
      (∃ script, Script.compile threshold keyColumns d scope (front ++ back) = .ok script ∧
          script.statements = statements) ↔
        ∃ first second, Script.compile threshold keyColumns d scope front = .ok first ∧
          Script.compile threshold keyColumns d scope back = .ok second ∧
          statements = first.statements ++ second.statements) ∧
    (∀ (threshold : Nat) (keyColumns keyColumns' : KeyColumns) (d : Dialect) (table : Table)
        (changes changes' : List Change),
      (changes.filter fun c => c.table = table) = (changes'.filter fun c => c.table = table) →
        keyColumns.get? table = keyColumns'.get? table →
        Script.compile threshold keyColumns d (some table) changes =
          Script.compile threshold keyColumns' d (some table) changes') ∧
    (script.isEmpty = false →
      ∀ h', Reaches (Elsewhere s table) (h.step (.generate s d (some table))) h' →
        h'.Stays s script) ∧
    (∀ h', Reaches (Minding s table) (h.step (.generate s d (some table))) h' → h'.Stays s script) ∧
    (store.refusal = none → Reaches (Stored Fresh) (start e issued) h →
      ∀ h', Reaches (Stored (Elsewhere s table)) (h.step (.generate s d (some table))) h' →
        h'.Stays s script) := by
  have filed := reaches.invariant (filed_start opened identified) fun h m => Filed.step
  have given := upholds_given filed generated
  refine ⟨fun threshold keyColumns d changes whole => Script.compile_part, Script.compile_append_iff,
    fun threshold keyColumns keyColumns' d table changes changes' part same =>
      Script.compile_congr part same threshold d, fun nonempty h' run => ?_, fun h' run => ?_,
    fun answers before h' run => ?_⟩
  · refine (run.upholds given (P := fun _ => True) trivial fun h m upholds _ elsewhere => ?_).stays
    exact ⟨elsewhere, .holds (upholds.changesOn_ne_nil nonempty), trivial⟩
  · refine (run.upholds given (P := fun _ => True) trivial fun h m _ _ minding => ?_).stays
    exact ⟨minding.1, .minds minding.2, trivial⟩
  · have start : (start e issued).engine.ledger.Tracked Settled store.listing := by
      obtain rfl := opened_eq opened
      exact ⟨answers, rfl, settled_onStore answers _⟩
    have tracked := before.invariant (p := fun h => h.engine.ledger.Tracked Settled store.listing)
      start fun h m tracked may => settled_step tracked may.2
    have first := settled_step (m := .generate s d (some table)) tracked nofun
    refine (run.upholds given (P := fun h => h.engine.ledger.Tracked Settled store.listing) first
      fun h m _ tracked may => ?_).stays
    have after := settled_step tracked may.2
    exact ⟨may.1, .settles tracked.answers after.answers (tracked.each s), after⟩

end History

namespace Sample

open Engine History

/-- Another table. -/
def orders : Table := ⟨"shop", none, "orders"⟩

/-- A row of the first table is staged. -/
def stocked : History :=
  ((start engine []).step (.activate desk)).step
    (.record desk (.insert items (item 1 "a") none) (id 1) 0)

/-- The script of the first table is generated, and a row of the other one is staged. -/
def ordered : History :=
  ((stocked.step (.generate desk .postgres (some items))).step (.setKeyColumns orders ["id"])).step
    (.record desk (.insert orders (item 1 "b") none) (id 2) 0)

/-- The script of the other table is generated. -/
def dispatched : History := ordered.step (.generate desk .postgres (some orders))

theorem stocked_reached : Reaches Fresh (start engine []) stocked :=
  .step _ (.step _ .refl trivial) ⟨List.not_mem_nil, rfl⟩

theorem dispatched_elsewhere :
    Reaches (Elsewhere desk items) (stocked.step (.generate desk .postgres (some items)))
      dispatched := by
  have other : orders ≠ items := by decide
  refine .step _ (.step _ (.step _ .refl ⟨trivial, other⟩) ⟨?_, fun _ => ⟨other, nofun⟩⟩)
    ⟨trivial, trivial⟩
  exact ⟨by decide, rfl⟩

theorem dispatched_compiles :
    ∃ other, (ordered.engine.generate desk .postgres (some orders)).1 = .ok other ∧
      other.isEmpty = false := ⟨_, rfl, rfl⟩

theorem stocked_compiles :
    ∃ script, (stocked.engine.generate desk .postgres (some items)).1 = .ok script ∧
      script.isEmpty = false := ⟨_, rfl, rfl⟩

theorem dispatched_sent {other : Script}
    (generated : (ordered.engine.generate desk .postgres (some orders)).1 = .ok other)
    (nonempty : other.isEmpty = false) :
    (dispatched.step (.startApply approval other tenth)).engine.calls = [⟨tenth, desk, other⟩] := by
  have reached : Reaches Fresh (start engine []) ordered := by
    refine .step _ (.step _ (.step _ stocked_reached trivial) trivial) ⟨by decide, rfl⟩
  have filed := reached.invariant (filed_start engine_opened engine_identified)
    fun h m => Filed.step
  have current := (upholds_given filed generated).stays.current
  obtain ⟨e', eq, -, calls, -⟩ := sent_of_gates approval tenth rfl rfl rfl current nonempty
    fun _ => rfl
  exact (congrArg Engine.calls eq).trans calls

/-- The script of the other table is applied, and that of the first one is not stale. -/
theorem scopes_apart_dispatched :
    ∃ script other, (stocked.engine.generate desk .postgres (some items)).1 = .ok script ∧
      (ordered.engine.generate desk .postgres (some orders)).1 = .ok other ∧
      let sent := dispatched.step (.startApply approval other tenth)
      sent.engine.calls = [⟨tenth, desk, other⟩] ∧
        (sent.step (.finishApply tenth)).Stays desk script := by
  obtain ⟨script, generated, nonempty⟩ := stocked_compiles
  obtain ⟨other, generated', nonempty'⟩ := dispatched_compiles
  have calls := dispatched_sent generated' nonempty'
  have compiled : Script.compile ordered.engine.settings.threshold ordered.engine.ledger.keyColumns
      .postgres (some orders) (ordered.engine.ledger.changes desk) = .ok other := generated'
  obtain ⟨-, -, -, stays, -, -⟩ :=
    scopes_apart engine_opened engine_identified stocked_reached generated
  refine ⟨script, other, generated, generated', calls, stays nonempty _ ?_⟩
  refine .step _ (.step _ dispatched_elsewhere ⟨trivial, trivial⟩) ⟨trivial, fun call found _ => ?_⟩
  have only := mem_of_call? found
  rw [calls, List.mem_singleton] at only
  subst only
  have given : (desk, other) ∈ dispatched.scripts := by
    refine List.mem_append_right _ ?_
    rw [givenScripts_of_compile compiled]
    exact List.mem_singleton.2 rfl
  exact ⟨List.mem_append_left _ given, orders,
    (Script.compiles_of_compile compiled).target.2, by decide⟩

/-- The store did not take the clearing of a row. -/
def lost : History :=
  ((stocked.step (.storage (some "offline"))).step (.deactivate desk true)).step (.storage none)

theorem lost_reached : Reaches Fresh (start engine []) lost :=
  .step _ (.step _ (.step _ stocked_reached trivial) trivial) trivial

def unstaged (table : Table) : Script :=
  ⟨"", [], [], [], [], .postgres, some table, Script.fingerprintOf .postgres [] ""⟩

/-- The empty scripts of both tables are generated. -/
def drawn : History :=
  (lost.step (.generate desk .postgres (some items))).step (.generate desk .postgres (some orders))

/-- The script of the other table is applied. -/
def emptied : History := drawn.step (.startApply approval (unstaged orders) tenth)

theorem drawn_loaded : lost.engine.ledger.Loaded drawn.engine.ledger := by
  have visited := lost.engine.ledger.visit_loaded desk
  rw [drawn, step_generate_ledger, step_generate_ledger]
  exact visited.trans (Ledger.visit_loaded _ desk)

theorem emptied_ledger : emptied.engine.ledger =
    { drawn.engine.ledger.load desk with
        sessions := (drawn.engine.ledger.load desk).sessions.erase desk } := by
  have compiled : (drawn.engine.generate desk .postgres (some orders)).1 = .ok (unstaged orders) := rfl
  have current : drawn.engine.checkCurrent desk (unstaged orders) = .ok () :=
    checkCurrent_of_compile compiled
  exact startApply_empty approval tenth rfl rfl rfl current rfl

theorem emptied_changes :
    emptied.engine.ledger.changes desk = stocked.engine.ledger.changes desk := by
  let d := Document.current desk true (stocked.engine.ledger.changes desk)
  have answering : Reaches Answering (start engine []) stocked :=
    .step _ (.step _ .refl trivial) trivial
  have written : stocked.engine.ledger.raw? desk = some d.render :=
    (mirrors_reached engine_opened answering).each desk
  have loaded := drawn_loaded.trans (drawn.engine.ledger.load_loaded desk)
  have unwritten : lost.engine.ledger.store.entries = stocked.engine.ledger.store.entries := rfl
  have entries : emptied.engine.ledger.store.entries = stocked.engine.ledger.store.entries := by
    simp only [emptied_ledger, loaded.store, unwritten]
  have space : emptied.engine.ledger.space = stocked.engine.ledger.space := by
    simp only [emptied_ledger, loaded.space]
    exact (placed_reached engine_opened lost_reached).2.trans
      (placed_reached engine_opened stocked_reached).2.symm
  have entry : emptied.engine.ledger.raw? desk = some d.render := by
    rw [Ledger.raw?, entries, space]
    exact written
  have gone : emptied.engine.ledger.sessions.get? desk = none := by
    simp only [emptied_ledger, Dict.get?_erase, if_true]
  have answers : emptied.engine.ledger.store.refusal = none := by
    simp only [emptied_ledger, loaded.store]
    rfl
  have shallow : d.toJson.depth ≤ Json.depthLimit := by decide +kernel
  have read := Ledger.session_of_document (d := d) entry gone answers rfl rfl rfl shallow
  rw [Ledger.changes]
  exact congrArg Session.changes read

theorem emptied_stale :
    emptied.engine.checkCurrent desk (unstaged items) = .error (.staleScript desk) := by
  obtain ⟨now, compiled, differs⟩ : ∃ now, Script.compile emptied.engine.settings.threshold
      Dict.empty .postgres (some items) (stocked.engine.ledger.changes desk) = .ok now ∧
        now.fingerprint ≠ (unstaged items).fingerprint := ⟨_, rfl, by decide +kernel⟩
  have keyColumns : emptied.engine.ledger.keyColumns = Dict.empty := by
    simp only [emptied_ledger]
    rfl
  have target : (unstaged items).dialect = .postgres ∧ (unstaged items).scope = some items := ⟨rfl, rfl⟩
  rw [checkCurrent, emptied_changes, keyColumns, target.1, target.2, compiled]
  exact if_neg differs

/-- A row of each table, both under one identifier. -/
def twins : List Change :=
  [⟨id 1, .insert, items, none, none, some (item 1 "a"), ⟨1, 0⟩, ⟨1, 0⟩⟩,
    ⟨id 1, .insert, orders, none, none, some (item 1 "b"), ⟨1, 0⟩, ⟨1, 0⟩⟩]

/-- An engine on a store that has the rows. -/
def twinEngine : Engine :=
  { engine with
      ledger := Ledger.onStore
        { Store.empty .walk with
            entries := Dict.empty.insert (Document.key Settings.default.storagePrefix desk)
              (Document.current desk true twins).render }
        Settings.default.storagePrefix }

theorem twinEngine_opened :
    Engine.opened Settings.default twinEngine.ledger.store Database.empty = .ok twinEngine := rfl

theorem twinEngine_session : twinEngine.ledger.session desk = ⟨true, false, twins⟩ := by
  let d := Document.current desk true twins
  have entry : twinEngine.ledger.raw? d.session = some d.render := Dict.get?_insert_self _ _ _
  have shallow : d.toJson.depth ≤ Json.depthLimit := by decide +kernel
  exact Ledger.session_of_document (d := d) entry rfl rfl rfl rfl rfl shallow

/-- The script of the first table is generated. -/
def gathered : History := (start twinEngine []).step (.generate desk .postgres (some items))

/-- The script of the other table is generated. -/
def twinned : History := gathered.step (.generate desk .postgres (some orders))

theorem gathered_loaded : twinEngine.ledger.Loaded gathered.engine.ledger := by
  rw [gathered, step_generate_ledger]
  exact (start twinEngine []).engine.ledger.visit_loaded desk

theorem twinned_loaded : twinEngine.ledger.Loaded twinned.engine.ledger := by
  rw [twinned, step_generate_ledger]
  exact gathered_loaded.trans (Ledger.visit_loaded _ desk)

/-- What compiles from the rows is what the engine makes of its ledger, as long as the ledger was only
read. -/
theorem twins_compiled {e : Engine} {d : Dialect} {scope : Option Table} {script : Script}
    (loaded : twinEngine.ledger.Loaded e.ledger) (settings : e.settings = Settings.default)
    (compiled : Script.compile Settings.default.threshold Dict.empty d scope twins = .ok script) :
    Script.compile e.settings.threshold e.ledger.keyColumns d scope (e.ledger.changes desk) =
      .ok script := by
  have changes : e.ledger.changes desk = twins :=
    congrArg Session.changes ((loaded.session desk).trans twinEngine_session)
  rw [changes, loaded.keyColumns, settings]
  exact compiled

theorem twins_compile :
    ∃ script other,
      Script.compile Settings.default.threshold Dict.empty .postgres (some items) twins =
          .ok script ∧
        Script.compile Settings.default.threshold Dict.empty .postgres (some orders) twins =
          .ok other ∧
        script.isEmpty = false ∧ other.isEmpty = false ∧ other.changeIds = [id 1] ∧
        script.fingerprint ≠ (unstaged items).fingerprint :=
  ⟨_, _, rfl, rfl, rfl, rfl, rfl, by decide +kernel⟩

/-- The script of the other table is applied. -/
def shipped (other : Script) : History :=
  (twinned.step (.startApply approval other tenth)).step (.finishApply tenth)

/-- Both rows leave the ledger, as the identifier of the one that is applied is that of the other too. -/
theorem shipped_changes {other : Script}
    (compiled : Script.compile Settings.default.threshold Dict.empty .postgres (some orders) twins =
      .ok other)
    (nonempty : other.isEmpty = false) (ids : other.changeIds = [id 1]) :
    Reaches (Elsewhere desk items) gathered (shipped other) ∧
      (shipped other).engine.ledger.changes desk = [] := by
  have before := twins_compiled gathered_loaded rfl compiled
  have after := twins_compiled twinned_loaded rfl compiled
  have target := (Script.compiles_of_compile compiled).target
  have current : twinned.engine.checkCurrent desk other = .ok () :=
    checkCurrent_of_compile (target.1.symm ▸ target.2.symm ▸ after)
  have session := (twinned_loaded.session desk).trans twinEngine_session
  have free : (twinned.engine.ledger.session desk).frozen = false := by rw [session]
  have reached : Reaches NewApply (start twinEngine []) twinned :=
    .step _ (.step _ .refl trivial) trivial
  obtain ⟨waits, left⟩ := applied_of_gates approval tenth (inStep_reached twinEngine_opened reached)
    (coherent_reached twinEngine_opened reached) rfl rfl rfl free current nonempty (fun _ => rfl) rfl
  constructor
  · refine .step _ (.step _ (.step _ .refl ⟨trivial, trivial⟩) ⟨trivial, trivial⟩)
      ⟨trivial, fun call found _ => ?_⟩
    obtain rfl : _ = call := Option.some.inj (waits.symm.trans found)
    have given : (desk, other) ∈ twinned.scripts := by
      refine List.mem_append_right _ ?_
      rw [givenScripts_of_compile before]
      exact List.mem_singleton.2 rfl
    exact ⟨List.mem_append_left _ given, orders, target.2, by decide⟩
  · refine left.trans ?_
    rw [show approval.session = desk from rfl, Ledger.changes, session, ids]
    rfl

theorem shipped_stale {script other : Script}
    (compiled : Script.compile Settings.default.threshold Dict.empty .postgres (some items) twins =
      .ok script)
    (empty : (shipped other).engine.ledger.changes desk = [])
    (differs : script.fingerprint ≠ (unstaged items).fingerprint) :
    (shipped other).engine.checkCurrent desk script = .error (.staleScript desk) := by
  have target := (Script.compiles_of_compile compiled).target
  obtain ⟨now, compiled, same⟩ : ∃ now, Script.compile (shipped other).engine.settings.threshold
      (shipped other).engine.ledger.keyColumns .postgres (some items) [] = .ok now ∧
        now.fingerprint = (unstaged items).fingerprint := ⟨_, rfl, rfl⟩
  rw [checkCurrent, empty, target.1, target.2, compiled]
  exact if_neg fun equal => differs (equal.symm.trans same)

/-- Two ways for a script to become stale while only another table is worked on.

* An empty script is stale as soon as a row is back from the store, which did not take its clearing.
* A script with a row is stale as soon as a row of the other table that has the same identifier is
applied. -/
theorem stale_elsewhere :
    (Reaches Fresh (start engine []) lost ∧
      (lost.engine.generate desk .postgres (some items)).1 = .ok (unstaged items) ∧
      Reaches (Elsewhere desk items) (lost.step (.generate desk .postgres (some items))) emptied ∧
      emptied.engine.checkCurrent desk (unstaged items) = .error (.staleScript desk)) ∧
    ∃ script other, ((start twinEngine []).engine.generate desk .postgres (some items)).1 = .ok script ∧
      script.isEmpty = false ∧
      Reaches (Elsewhere desk items)
        ((start twinEngine []).step (.generate desk .postgres (some items))) (shipped other) ∧
      (shipped other).engine.checkCurrent desk script = .error (.staleScript desk) := by
  constructor
  · exact ⟨lost_reached, rfl, .step _ (.step _ .refl ⟨trivial, trivial⟩) ⟨trivial, trivial⟩,
      emptied_stale⟩
  · obtain ⟨script, other, compiled, compiled', nonempty, nonempty', ids, differs⟩ := twins_compile
    have generated : ((start twinEngine []).engine.generate desk .postgres (some items)).1 =
        .ok script :=
      generate_of_compile (twins_compiled (.refl _) rfl compiled)
    obtain ⟨reaches, empty⟩ := shipped_changes compiled' nonempty' ids
    exact ⟨script, other, generated, nonempty, reaches, shipped_stale compiled empty differs⟩

end Sample

end DraftLedger
