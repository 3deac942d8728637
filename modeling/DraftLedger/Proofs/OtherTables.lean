import DraftLedger.Proofs.Accounts
import DraftLedger.Proofs.Chronicle
import DraftLedger.Proofs.Registrations

/-!
# Moves that concern other tables

A move that concerns other tables leaves the changes of a table as they are, unless the session has
none on it and leaves memory: then the session is what the store has of it from now on.

* `Ledger.SameOn`, `Ledger.Passes` : what such a move does to the changes of a table.
* `History.Filed` : identifiers tell tables, so that a script of another table covers none of the
  changes.
* `History.Elsewhere` : the moves that concern other tables.
* `History.Filed.passes` : a move through the session, one case for each kind of move.
-/

set_option autoImplicit false

namespace DraftLedger

/-! ## The changes of a table -/

namespace Ledger

variable {l l' l'' : Ledger} {m : Engine.Move} {s t : SessionId} {table : Table}

/-- The session has the same changes on the table, and stays in memory. -/
structure SameOn (s : SessionId) (table : Table) (l l' : Ledger) : Prop where
  changes : l'.changesOn s table = l.changesOn s table
  mem : (l.sessions.get? s).isSome = true → (l'.sessions.get? s).isSome = true

/-- The session has the same changes on the table and stays in memory; or it is not in memory afterwards,
and if it was before, it had no changes on the table.  Even then it has the same ones, if the store answers
and has nothing of a session without changes. -/
inductive Passes (s : SessionId) (table : Table) (l l' : Ledger) : Prop
  | sameOn (h : SameOn s table l l')
  | absent (none : (l.sessions.get? s).isSome = true → l.changesOn s table = [])
      (gone : l'.sessions.get? s = .none)
      (settled : l.store.refusal = .none → l'.store.refusal = .none → l.Settled s →
        l'.changesOn s table = l.changesOn s table)

theorem SameOn.refl (s : SessionId) (table : Table) (l : Ledger) : SameOn s table l l := ⟨rfl, id⟩

theorem SameOn.trans (h : SameOn s table l l') (h' : SameOn s table l' l'') : SameOn s table l l'' :=
  ⟨h'.changes.trans h.changes, fun mem => h'.mem (h.mem mem)⟩

theorem Loaded.sameOn (h : l.Loaded l') (s : SessionId) (table : Table) : SameOn s table l l' := by
  refine ⟨by rw [changesOn, h.changes, changesOn], fun mem => ?_⟩
  rcases h.sessions s with same | ⟨absent, -⟩
  · rw [same]
    exact mem
  · rw [absent] at mem
    cases mem

theorem sameOn_written {x : Session}
    (same : (x.changes.filter fun c => c.table = table) = l.changesOn s table) :
    SameOn s table l (l.written s x) := by
  refine ⟨?_, fun _ => by rw [get?_sessions_written, if_pos rfl]; rfl⟩
  rw [changesOn, changes, session_written, if_pos rfl, same]

theorem sameOn_put {x : Session} (same : x.changes = l.changes s) :
    SameOn s table l (l.put s x) := by
  refine ⟨?_, fun _ => by simp [put]⟩
  rw [changesOn, changes, session_put, if_pos rfl, same, changesOn]

theorem replacing_sameOn {α : Type} (l : Ledger) (s : SessionId)
    (replacement : Session → Except Error (Session × α)) (kind : α → EventKind)
    (same : ∀ x a, replacement (l.session s) = .ok (x, a) →
      (x.changes.filter fun c => c.table = table) = l.changesOn s table) :
    SameOn s table l (l.replacing s replacement kind).ledger := by
  have loaded := (l.load_loaded s).sameOn s table
  rcases l.replacing_cases s replacement kind with ⟨e, eq⟩ | ⟨x, a, -, replaced, eq⟩
  · rw [eq]
    exact loaded
  · rw [eq]
    exact loaded.trans (sameOn_written ((same x a replaced).trans loaded.changes.symm))

/-- A change of another table may go, or another one of that table come in its place. -/
theorem filter_table_located {changes before after : List Change} {found : Change} {id : ChangeId}
    (located : locate? id changes = some (before, found, after))
    (others : ∀ c ∈ changes.filter fun c => c.table = table, c.id ≠ id) (rest : Option Change)
    (same : ∀ c ∈ rest, c.table = found.table) :
    ((before ++ rest.toList ++ after).filter fun c => c.table = table) =
      changes.filter fun c => c.table = table := by
  obtain ⟨rfl, known⟩ := locate?_eq_some located
  have other : found.table ≠ table := fun here =>
    others found (List.mem_filter.2 ⟨by simp, decide_eq_true here⟩) known
  cases rest with
  | none => simp [other]
  | some c =>
    have other' : c.table ≠ table := same c rfl ▸ other
    simp [other, other']

theorem filter_table_withAssignedKey {changes result : List Change} {id : ChangeId} {key : Row}
    (assigned : withAssignedKey changes id key = .ok result)
    (others : ∀ c ∈ changes.filter fun c => c.table = table, c.id ≠ id) :
    (result.filter fun c => c.table = table) = changes.filter fun c => c.table = table := by
  unfold withAssignedKey at assigned
  split at assigned
  · cases assigned
  next before found after located =>
  split at assigned
  · cases assigned
  split at assigned
  · cases assigned
  cases assigned
  have keyed := filter_table_located located others (some { found with primaryKey := some key })
    (by rintro c ⟨⟩; rfl)
  rwa [Option.toList_some, List.append_assoc, List.singleton_append] at keyed

theorem unfreeze_passes (l : Ledger) (s : SessionId) (table : Table) :
    Passes s table l (l.unfreeze s) := by
  rcases l.unfreeze_cases s with ⟨-, eq⟩ | ⟨x, present, eq | forgets⟩
  · rw [eq]
    exact .sameOn (.refl s table l)
  · rw [eq]
    exact .sameOn (sameOn_put (changes_of_present present).symm)
  · obtain ⟨-, -, empty⟩ := forgets.nothing
    have none : l.changes s = [] := by
      rw [changes_of_present present]
      rwa [changes, session_put, if_pos rfl] at empty
    have here : l.changesOn s table = [] := by rw [changesOn, none]; rfl
    refine .absent (fun _ => here) forgets.gone fun _ _ settled => ?_
    have kept : (l.unfreeze s).keptChanges s = [] := by
      rw [keptChanges_congr forgets.space forgets.store]
      exact settled none
    have recovered : (l.unfreeze s).changes s = ((l.unfreeze s).recovered s).changes := by
      rw [changes, session, forgets.gone]
    rw [changesOn, recovered, recovered_changes, kept, ite_self, here]
    rfl

theorem SameOn.passes (h : SameOn s table l l') (rest : Passes s table l' l'')
    (still : l.store.refusal = none → l.Settled s → l'.store.refusal = none ∧ l'.Settled s) :
    Passes s table l l'' := by
  cases rest with
  | sameOn h' => exact .sameOn (h.trans h')
  | absent none gone settled =>
    refine .absent (fun mem => h.changes ▸ none (h.mem mem)) gone fun answers answers' before => ?_
    obtain ⟨between, before'⟩ := still answers before
    exact (settled between answers' before').trans h.changes

theorem storage_passes (l : Ledger) (refusal : Option String) (s : SessionId) (table : Table) :
    Passes s table l { l with store.refusal := refusal } := by
  cases present : l.sessions.get? s with
  | some x =>
    have changes : ({ l with store.refusal := refusal } : Ledger).changes s = l.changes s := by
      rw [changes_of_present present]
      exact changes_of_present present
    exact .sameOn ⟨by rw [changesOn, changes, changesOn], id⟩
  | none =>
    refine .absent (fun mem => ?_) present fun answers answers' _ => ?_
    · rw [present] at mem
      cases mem
    · have same : ({ l with store.refusal := refusal } : Ledger) = l := by
        rw [show refusal = none from answers', ← answers]
      rw [same]

/-! ## Other sessions -/

theorem Course.sameOn (h : Course m s l l') (other : t ≠ s) (table : Table) :
    SameOn t table l l' := by
  refine ⟨?_, fun mem => ?_⟩
  · rw [changesOn, changes, h.confined.sessions t other, changesOn, changes]
  · rw [h.others.2 t other]
    exact mem

end Ledger

/-! ## Listeners -/

/-- The listener takes out what is staged in the session as soon as it hears of it. -/
def Listener.Empties (l : Listener) (s : SessionId) : Prop :=
  l.reaction = .clear ∧ (l.only = none ∨ l.only = some s)

theorem Audience.clears_eq_false {l : Listener} {event : Event} (keeps : ¬ l.Empties event.session) :
    clears event l = false := by
  unfold clears
  split
  · next outcome reaction kind =>
    have cares : l.only ≠ none ∧ l.only ≠ some event.session :=
      not_or.1 fun only => keeps ⟨reaction, only⟩
    unfold Audience.cares
    split
    · next t only => exact decide_eq_false fun same => cares.2 (same ▸ only)
    · next only => exact absurd only cares.1
  · rfl

theorem Audience.announce_of_quiet {event : Event} (st : Ledger × Audience)
    (mem : (st.1.sessions.get? event.session).isSome = true)
    (quiet : ∀ l ∈ st.2.listeners, clears event l = false) : (announce event st).1 = st.1 := by
  unfold announce
  generalize st.2.listeners = listeners at quiet ⊢
  induction listeners generalizing st with
  | nil => rfl
  | cons l rest ih =>
    obtain ⟨first, others⟩ := List.forall_mem_cons.1 quiet
    have same : (hear event st l).1 = st.1 := by
      rw [hear_of_not_clears first, note_ledger st l mem]
    rw [List.foldl_cons, ih _ (same ▸ mem) others, same]

namespace Engine

variable {e : Engine} {s : SessionId}

theorem hearing_ledger_of_quiet {ε α : Type} {step : Ledger.Step ε α} (tells : TellsOf step s)
    (quiet : ∀ event ∈ step.event, ∀ l ∈ e.audience.listeners, Audience.clears event l = false) :
    (e.hearing step).ledger = step.ledger := by
  unfold hearing
  cases told : step.event with
  | none => rfl
  | some event =>
    obtain ⟨rfl, mem⟩ := tells event told
    exact Audience.announce_of_quiet (step.ledger, e.audience) mem (quiet event told)

theorem replacing_sameOn {α : Type} (e : Engine) (s : SessionId) (table : Table)
    (replacement : Session → Except Error (Session × α)) (kind : α → EventKind)
    (unstaged : ∀ a outcome, kind a ≠ .recorded outcome)
    (same : ∀ x a, replacement (e.ledger.session s) = .ok (x, a) →
      (x.changes.filter fun c => c.table = table) = e.ledger.changesOn s table) :
    Ledger.SameOn s table e.ledger
      (e.mutate fun l => l.replacing s replacement kind).2.ledger := by
  have heard : (e.mutate fun l => l.replacing s replacement kind).2.ledger =
      (e.ledger.replacing s replacement kind).ledger := by
    refine hearing_ledger_of_quiet (replacing_tellsOf e.ledger s replacement kind) ?_
    intro event told l _
    rcases e.ledger.replacing_cases s replacement kind with ⟨e', eq⟩ | ⟨x, a, -, -, eq⟩ <;>
      simp only [eq, Ledger.refused] at told <;> cases told
    exact clears_of_unstaged (unstaged a) l
  rw [heard]
  exact e.ledger.replacing_sameOn s replacement kind same

theorem assignPrimaryKey_sameOn (e : Engine) (s : SessionId) (id : ChangeId) (key : Row)
    {table : Table} (others : ∀ c ∈ e.ledger.changesOn s table, c.id ≠ id) :
    Ledger.SameOn s table e.ledger (e.perform (.assignPrimaryKey s id key)).ledger := by
  by_cases empty : key.isEmpty = true
  · have same : e.perform (.assignPrimaryKey s id key) = e := by
      simp only [perform, mutate, Ledger.assignPrimaryKey, if_pos empty, hearing, Ledger.refused]
    rw [same]
    exact .refl s table _
  · have same : e.perform (.assignPrimaryKey s id key) = (e.mutate fun l => l.replacing s
        (fun session => (Ledger.withAssignedKey session.changes id key).map fun changes =>
          ({ session with changes }, ())) fun _ => .keyAssigned id).2 := by
      simp only [perform, mutate, Ledger.assignPrimaryKey, if_neg empty]
    rw [same]
    refine e.replacing_sameOn s table _ _ (fun a outcome told => by cases told) fun x a replaced => ?_
    cases assigned : Ledger.withAssignedKey (e.ledger.session s).changes id key with
    | error refusal =>
      rw [assigned] at replaced
      cases replaced
    | ok changes =>
      rw [assigned] at replaced
      cases replaced
      exact Ledger.filter_table_withAssignedKey assigned others

theorem record_sameOn {edit : Edit} (e : Engine) (s : SessionId) (id : ChangeId) (now : UInt64)
    {table : Table} (other : edit.table ≠ table)
    (keeps : ∀ l ∈ e.audience.listeners, ¬ l.Empties s) :
    Ledger.SameOn s table e.ledger (e.perform (.record s edit id now)).ledger := by
  have loaded := e.ledger.load_loaded s
  have same : e.perform (.record s edit id now) = e.hearing (e.ledger.record s edit id now) := rfl
  rw [same]
  rcases e.ledger.record_cases s edit id now with
    idle | ⟨stamp, changes, outcome, -, -, -, -, staged, eq⟩
  · have unheard : (e.hearing (e.ledger.record s edit id now)).ledger =
        (e.ledger.record s edit id now).ledger := by
      simp only [hearing, idle.event]
    rw [unheard]
    exact idle.ledger.sameOn s table
  · rw [eq]
    refine (hearing_ledger_of_quiet (s := s) ?_ ?_).symm ▸ ?_
    · rintro event ⟨⟩
      exact ⟨rfl, by simp [Ledger.get?_sessions_written]⟩
    · rintro event ⟨⟩ l hl
      exact Audience.clears_eq_false (keeps l hl)
    · have read := (loaded.trans (Ledger.withClock_loaded _ ⟨stamp⟩)).sameOn s table
      refine read.trans (Ledger.sameOn_written ?_)
      rw [read.changes]
      exact stage_other_table staged (by simpa using other)

end Engine

/-! ## Identifiers tell tables -/

theorem Change.labelled_table_steady {issued : List ChangeId} {tableOf : ChangeId → Table} :
    Steady (Labelled Change.table issued tableOf) where
  readBack c c' h reads := by
    obtain ⟨id, -, table, -⟩ := reads.spec
    rw [Labelled, id, table]
    exact h
  assigned c key h _ _ := h
  takenIn c incoming c' outcome h noInsertion takes := by
    obtain ⟨id, table⟩ := takeIn_identity takes noInsertion
    rw [Labelled, id, table]
    exact h

namespace History

open Engine Ledger

variable {h : History} {m : Move} {s : SessionId} {table : Table}

/-- The script of one table covers identifiers that tell this table. -/
def Files (h : History) (tableOf : ChangeId → Table) (script : Script) : Prop :=
  ∀ u, script.scope = some u → ∀ id ∈ script.changeIds, id ∈ h.issued ∧ tableOf id = u

/-- Identifiers tell tables, those of the changes in the ledger and those in the scripts that were given
out. -/
structure Filed (h : History) : Prop where
  space : h.engine.ledger.space = h.engine.settings.storagePrefix
  told : ∃ tableOf, h.engine.ledger.Throughout (Change.Labelled Change.table h.issued tableOf) ∧
    ∀ t script, (t, script) ∈ h.scripts → h.Files tableOf script

theorem filed_start {settings : Settings} {store : Store} {database : Database} {e : Engine}
    {issued : List ChangeId} (opened : Engine.opened settings store database = .ok e)
    (identified : e.ledger.Identified issued) : (start e issued).Filed := by
  have : Nonempty Table := ⟨⟨"", none, ""⟩⟩
  obtain ⟨tableOf, labelled⟩ := identified.labelled Change.table
  obtain rfl := opened_eq opened
  exact ⟨rfl, tableOf, ⟨fun s x present => by simp [start, Ledger.onStore] at present, labelled⟩,
    fun t script given => absurd given List.not_mem_nil⟩

theorem Filed.step (filed : h.Filed) (fresh : h.Fresh m) : (h.step m).Filed := by
  obtain ⟨tableOf, throughout, scripts⟩ := filed.told
  obtain ⟨tableOf', same, more, new⟩ := labelled_extend Change.table tableOf fresh
  have turn := h.engine.perform_turn m
  obtain ⟨settings, space⟩ := turn.space filed.space
  refine ⟨?_, tableOf', ?_, fun t script given u target id covered => ?_⟩
  · rw [show (h.step m).engine = h.engine.perform m from rfl, settings]
    exact space
  · exact turn.throughout Change.labelled_table_steady filed.space (throughout.mono more)
      fun s edit id now stamp same _ reading _ => new s edit id now stamp same reading
  · rcases List.mem_append.1 given with old | now
    · obtain ⟨issued, tells⟩ := scripts t script old u target id covered
      exact ⟨List.mem_append_left _ issued, (same id issued).trans tells⟩
    · obtain ⟨dialect, scope, rfl, compiled⟩ := mem_givenScripts now
      have compiles := Script.compiles_of_compile compiled
      rw [compiles.changeIds] at covered
      obtain ⟨c, hc, rfl⟩ := List.mem_map.1 covered
      rw [← compiles.target.2, target] at hc
      obtain ⟨mem, here⟩ := List.mem_filter.1 hc
      obtain ⟨issued, tells⟩ := more c (throughout.changes t c mem)
      exact ⟨issued, tells.trans (of_decide_eq_true here)⟩

theorem Filed.apart (filed : h.Filed) {t : SessionId} {script : Script} {u : Table}
    (given : (t, script) ∈ h.scripts) (target : script.scope = some u) (other : u ≠ table) :
    ∀ c ∈ h.engine.ledger.changesOn s table, c.id ∉ script.changeIds := by
  obtain ⟨tableOf, throughout, scripts⟩ := filed.told
  intro c hc covered
  obtain ⟨mem, here⟩ := List.mem_filter.1 hc
  have tells := (throughout.changes s c mem).2
  rw [(scripts t script given u target c.id covered).2] at tells
  exact other (tells.trans (of_decide_eq_true here))

/-! ## Moves -/

/-- The move may not concern what the session has on the table: it is about another session, or about
another table. -/
def Elsewhere (s : SessionId) (table : Table) (h : History) (m : Move) : Prop :=
  h.Fresh m ∧
    match m with
    | .record t edit _ _ =>
      t = s → edit.table ≠ table ∧ ∀ l ∈ h.engine.audience.listeners, ¬ l.Empties s
    | .deactivate t discard => t = s → discard = false
    | .remove t id | .assignPrimaryKey t id _ =>
      t = s → ∀ c ∈ h.engine.ledger.changesOn s table, c.id ≠ id
    | .clearAll t => t ≠ s
    | .clearTable t u => t = s → u ≠ table
    | .setKeyColumns u _ | .detectKeys _ u => u ≠ table
    | .finishApply id =>
      ∀ call, h.engine.call? id = some call → call.session = s →
        (s, call.script) ∈ h.scripts ∧ ∃ u, call.script.scope = some u ∧ u ≠ table
    | .reopen => False
    | _ => True

theorem startApply_passes (e : Engine) (request : Apply.Request) (script : Script) (id : ApplyId)
    (table : Table) :
    Passes request.session table e.ledger (e.startApply request script id).2.ledger := by
  have loaded := e.ledger.load_loaded request.session
  have claimed : SameOn request.session table e.ledger (e.claimed request.session id).ledger :=
    (loaded.sameOn _ table).trans (sameOn_put (loaded.changes _).symm)
  have start := e.startApply_cases request script id
  generalize e.startApply request script id = result at start
  cases start with
  | busy applying => exact .sameOn (.refl _ table _)
  | asked idle => exact .sameOn (.refl _ table _)
  | refused idle frozen => exact .sameOn (loaded.sameOn _ table)
  | ended idle free answer checked =>
    rw [(release_spec _ _ _ _).2.1]
    refine claimed.passes (unfreeze_passes _ _ table) fun answers settled => ?_
    have store : (e.claimed request.session id).ledger.store = e.ledger.store := loaded.store
    refine ⟨by rw [store, answers], settled_tracks.rests ?_ settled⟩
    have held := rests_put (l := e.ledger.load request.session) (s := request.session)
      (x := { e.ledger.session request.session with frozen := true })
      (congrArg Session.active (loaded.session _)).symm (loaded.changes _).symm request.session
    exact (loaded.keeps _).rests.trans held
  | waiting idle free => exact .sameOn claimed

/-- The transaction of a script that covers no change of the table comes to its end. -/
theorem settle_passes (e : Engine) (call : Apply.Call) (table : Table)
    (apart : ∀ c ∈ e.ledger.changesOn call.session table, c.id ∉ call.script.changeIds) :
    Passes call.session table e.ledger (e.settle call).2.ledger := by
  cases ending : e.database.failure with
  | some error =>
    rw [(e.settle_failed call ending).2.2.1]
    exact unfreeze_passes _ _ table
  | none =>
    have loaded := e.ledger.load_loaded call.session
    rw [(e.settle_committed call ending).2.2.1, clearApplied_ledger]
    have here := loaded.sameOn call.session table
    have same : (((e.ledger.changes call.session).filter fun c =>
        !call.script.changeIds.contains c.id).filter fun c => c.table = table) =
          (e.ledger.load call.session).changesOn call.session table := by
      rw [here.changes, List.filter_comm]
      exact List.filter_eq_self.2 fun c hc => by simpa using apart c hc
    refine (here.trans (sameOn_written same)).passes (unfreeze_passes _ _ table) fun answers _ => ?_
    have answers : (e.ledger.load call.session).store.refusal = none := loaded.store ▸ answers
    exact ⟨(refusal_written _).trans answers, settled_tracks.written _ answers⟩

variable {t : SessionId}

theorem Filed.passes_through (filed : h.Filed) (elsewhere : h.Elsewhere s table m)
    (about : h.engine.sessionOf? m = some s) :
    Passes s table h.engine.ledger (h.engine.perform m).ledger := by
  cases m with
  | activate t =>
    cases about
    refine .sameOn (h.engine.replacing_sameOn s table _ _ nofun ?_)
    rintro x a ⟨⟩
    rfl
  | deactivate t discard =>
    cases about
    obtain rfl : discard = false := elsewhere.2 rfl
    refine .sameOn (h.engine.replacing_sameOn s table _ _ nofun ?_)
    rintro x a ⟨⟩
    rfl
  | record t edit id now =>
    cases about
    obtain ⟨other, keeps⟩ := elsewhere.2 rfl
    exact .sameOn (h.engine.record_sameOn s id now other keeps)
  | remove t id =>
    cases about
    refine .sameOn (h.engine.replacing_sameOn s table _ _ nofun fun x a removed => ?_)
    split at removed
    · cases removed
    next before found after located =>
    cases removed
    have rest := filter_table_located located (elsewhere.2 rfl) none nofun
    rwa [Option.toList_none, List.append_nil] at rest
  | assignPrimaryKey t id key =>
    cases about
    exact .sameOn (h.engine.assignPrimaryKey_sameOn s id key (elsewhere.2 rfl))
  | clearAll t =>
    cases about
    exact absurd rfl elsewhere.2
  | clearTable t u =>
    cases about
    refine .sameOn (h.engine.replacing_sameOn s table _ _ nofun ?_)
    rintro x a ⟨⟩
    refine (List.filter_comm _ _ _).trans (List.filter_eq_self.2 fun c hc => ?_)
    have here : c.table = table := of_decide_eq_true (List.mem_filter.1 hc).2
    exact decide_eq_true fun same => elsewhere.2 rfl (same.symm.trans here)
  | look t =>
    cases about
    exact .sameOn ((h.engine.ledger.visit_loaded s).sameOn s table)
  | generate t dialect scope =>
    cases about
    exact .sameOn ((h.engine.ledger.visit_loaded s).sameOn s table)
  | startApply request script id =>
    cases about
    exact startApply_passes h.engine request script id table
  | finishApply id =>
    obtain ⟨call, found, rfl⟩ := Option.map_eq_some_iff.1 about
    obtain ⟨given, u, target, other⟩ := elsewhere.2 call found rfl
    have same : h.engine.perform (.finishApply id) = (h.engine.settle call).2 := by
      simp only [perform, finishApply, found]
    rw [same]
    exact settle_passes h.engine call table (filed.apart given target other)
  | abandonApply id =>
    obtain ⟨call, found, rfl⟩ := Option.map_eq_some_iff.1 about
    have same : h.engine.perform (.abandonApply id) =
        (h.engine.withoutCall id).release call.session id .idle := by
      simp only [perform, abandonApply, found]
    rw [same, (release_spec _ _ _ _).2.1]
    exact unfreeze_passes _ _ table
  | _ => cases about

theorem Filed.passes (filed : h.Filed) (elsewhere : h.Elsewhere s table m) :
    Passes s table h.engine.ledger (h.engine.perform m).ledger := by
  cases about : h.engine.sessionOf? m with
  | some t =>
    by_cases here : s = t
    · exact filed.passes_through elsewhere (here ▸ about)
    · exact .sameOn ((h.engine.perform_course about).sameOn here table)
  | none =>
    rcases h.engine.perform_elsewhere about with ⟨keyColumns, eq⟩ | ⟨refusal, rfl⟩ | rfl
    · rw [eq]
      exact .sameOn ⟨rfl, id⟩
    · exact storage_passes _ refusal s table
    · exact elsewhere.2.elim

theorem Elsewhere.keyColumns (elsewhere : h.Elsewhere s table m) :
    (h.engine.perform m).ledger.keyColumns.get? table = h.engine.ledger.keyColumns.get? table := by
  have silent : h.engine.said? m table = none := by
    cases m with
    | setKeyColumns u columns => exact if_neg elsewhere.2
    | detectKeys handle u => exact if_neg elsewhere.2
    | reopen => exact elsewhere.2.elim
    | _ => rfl
  rw [get?_perform, silent, Option.getD_none]

end History

end DraftLedger
