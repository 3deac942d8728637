import DraftLedger.Proofs.Mirror
import DraftLedger.Proofs.Standing

/-!
# An apply is atomic for its session

While an apply waits for the database, nothing changes its session.  A commit takes exactly the
changes of its script out, and a failure or a dropped apply leaves the session as it was.  The store
has part in this as far as it takes writes.

* `Engine.Refuses` : everything that would change a session is refused.
* `Ledger.Agrees` : the store has the session as it is, or what is read as that.
* `Ledger.Returned`, `Ledger.Cleared` : what an apply leaves of its session that does not commit, and
  one that commits.
* `Engine.Atomic` : what is so between the start and the end of an apply.
* `History.apply_atomic` : it is so in every run.
-/

set_option autoImplicit false

namespace DraftLedger

/-! ## What the store has of a session -/

namespace Ledger

variable {l l' : Ledger} {s : SessionId} {ids : List ChangeId}

/-- The session that the store has when it answers. -/
def keptSession (l : Ledger) (s : SessionId) : Session :=
  ((l.kept? s).map fun d => ⟨d.active, false, d.changes⟩).getD Session.vacant

/-- The store has the session: its text was written from the session as it is, or is read as that. -/
def Agrees (l : Ledger) (s : SessionId) : Prop :=
  l.Mirrors s ∨ l.keptSession s = ⟨l.isActive s, false, l.changes s⟩

theorem recovered_eq_keptSession (l : Ledger) (s : SessionId) :
    l.recovered s = if l.store.refusal = none then l.keptSession s else Session.vacant :=
  l.recovered_eq s

theorem keptSession_frozen (l : Ledger) (s : SessionId) : (l.keptSession s).frozen = false := by
  unfold keptSession
  cases l.kept? s <;> rfl

theorem agrees_of_recovered (answers : l.store.refusal = none)
    (here : l.session s = l.recovered s) : l.Agrees s := by
  have session : l.session s = l.keptSession s := by
    rw [here, recovered_eq_keptSession, if_pos answers]
  refine .inr ?_
  rw [isActive, changes, session, ← l.keptSession_frozen s]

theorem agrees_tracks : Tracks Agrees where
  rests {l l' s} rests h := by
    refine h.imp (mirrors_tracks.rests rests) fun read => ?_
    have kept : l'.keptSession s = l.keptSession s := by rw [keptSession, rests.kept]; rfl
    rw [kept, rests.active, rests.changes]
    exact read
  written x answers := .inl (mirrors_tracks.written x answers)
  forgets {l l' s} answers forgets _ := by
    refine agrees_of_recovered (forgets.store ▸ answers) ?_
    rw [session, forgets.gone]

theorem agrees_onStore {store : Store} (answers : store.refusal = none) (space : String)
    (s : SessionId) : (onStore store space).Agrees s :=
  agrees_of_recovered answers rfl

/-! ## Giving a session back -/

theorem store_unfreeze (l : Ledger) (s : SessionId) : (l.unfreeze s).store = l.store :=
  unfreeze_keeps (p := fun l' => l'.store = l.store) rfl (fun _ _ => rfl)
    fun _ _ forgets same => forgets.store.trans same

/-- If the store has nothing else of a session of which there is nothing to know, or does not answer,
the session is read as vacant. -/
theorem recovered_of_vacant (inactive : l.isActive s = false) (empty : l.changes s = [])
    (lasts : l.Agrees s ∨ l.store.refusal ≠ none) : l.recovered s = Session.vacant := by
  rw [recovered_eq_keptSession]
  rcases lasts with (mirrors | read) | refuses
  · have none : l.raw? s = none := mirrors.trans (Session.raw?_eq_none.2 ⟨inactive, empty⟩)
    unfold raw? at none
    simp only [keptSession, kept?, none, ite_eq_right_iff]
    exact fun _ => rfl
  · rw [read, inactive, empty]
    exact ite_self _
  · rw [if_neg refuses]

theorem unfreeze_of_held (held : (l.session s).frozen = true) :
    ∃ l₁, Rests s l l₁ ∧ (l.unfreeze s = l₁ ∨ Forgets s l₁ (l.unfreeze s)) := by
  obtain ⟨x, present⟩ := mem_of_frozen held
  have here : l.session s = x := by rw [session, present]
  refine ⟨l.put s { x with frozen := false }, rests_put ?_ ?_ s, ?_⟩
  · rw [isActive, here]
  · rw [changes, here]
  · rcases l.unfreeze_cases s with ⟨absent, -⟩ | ⟨x', present', given⟩
    · rw [present] at absent
      cases absent
    · obtain rfl := Option.some.inj (present.symm.trans present')
      exact given

/-- A held session that is given back stays as it is, unless there is nothing to know about it and
the store answers with something else. -/
theorem unfreeze_rests (held : (l.session s).frozen = true)
    (lasts : l.isActive s = true ∨ l.changes s ≠ [] ∨ l.Agrees s ∨ l.store.refusal ≠ none) :
    Rests s l (l.unfreeze s) := by
  obtain ⟨l₁, back, eq | forgets⟩ := unfreeze_of_held held
  · exact eq ▸ back
  obtain ⟨inactive, -, empty⟩ := forgets.nothing
  rw [back.active] at inactive
  rw [back.changes] at empty
  have rest : l.Agrees s ∨ l.store.refusal ≠ none := by
    rcases lasts with active | some | rest
    · rw [inactive] at active
      cases active
    · exact absurd empty some
    · exact rest
  have gone : (l.unfreeze s).session s = Session.vacant := by
    have same : (l.unfreeze s).recovered s = l.recovered s :=
      recovered_congr (l.space_unfreeze s) (l.store_unfreeze s) s
    rw [session, forgets.gone]
    exact same.trans (recovered_of_vacant inactive empty rest)
  refine ⟨?_, ?_, raw?_congr (l.space_unfreeze s) (l.store_unfreeze s) s,
    kept?_congr (l.space_unfreeze s) (l.store_unfreeze s) s⟩
  · rw [inactive, isActive, gone]
    rfl
  · rw [empty, changes, gone]
    rfl

/-- The second ledger has the session back after an apply that did not commit. -/
structure Returned (s : SessionId) (l l' : Ledger) : Prop where
  free : l'.isFrozen s = false
  entry : l'.raw? s = l.raw? s
  rests : l.isActive s = true ∨ l.changes s ≠ [] ∨ l.Agrees s ∨ l'.store.refusal ≠ none → Rests s l l'

theorem returned_unfreeze (held : (l.session s).frozen = true) : Returned s l (l.unfreeze s) where
  free := by rw [isFrozen_unfreeze, if_pos rfl]
  entry := raw?_congr (l.space_unfreeze s) (l.store_unfreeze s) s
  rests lasts := unfreeze_rests held (l.store_unfreeze s ▸ lasts)

theorem Returned.of_rests {l₀ : Ledger} (h : Returned s l l') (rests : Rests s l₀ l) :
    Returned s l₀ l' where
  free := h.free
  entry := h.entry.trans rests.entry
  rests lasts := by
    refine rests.trans (h.rests ?_)
    rw [rests.active, rests.changes]
    exact lasts.imp_right (Or.imp_right (Or.imp_left (agrees_tracks.rests rests)))

/-- The second ledger has the session back after a commit that covers some of its changes. -/
structure Cleared (s : SessionId) (ids : List ChangeId) (l l' : Ledger) : Prop where
  free : l'.isFrozen s = false
  active : l'.isActive s = l.isActive s
  left : l'.changes s = (l.changes s).filter fun c => !ids.contains c.id
  written : l'.store.refusal = none → l'.raw? s = Session.raw? s
    ⟨l.isActive s, false, (l.changes s).filter fun c => !ids.contains c.id⟩
  unwritten : l'.store.refusal ≠ none → l'.raw? s = l.raw? s

theorem refusal_clearApplied (l : Ledger) (s : SessionId) (ids : List ChangeId) :
    ((l.clearApplied s ids).ledger.unfreeze s).store.refusal = l.store.refusal := by
  rw [store_unfreeze, clearApplied_ledger, refusal_written, (l.load_loaded s).store]

theorem cleared_unfreeze (held : (l.session s).frozen = true) (ids : List ChangeId) :
    Cleared s ids l ((l.clearApplied s ids).ledger.unfreeze s) := by
  let rest := (l.changes s).filter fun c => !ids.contains c.id
  let l₁ := (l.load s).written s { l.session s with changes := rest }
  have loaded := l.load_loaded s
  have eq : (l.clearApplied s ids).ledger = l₁ := l.clearApplied_ledger s ids
  have refusal : (l₁.unfreeze s).store.refusal = l.store.refusal := eq ▸ l.refusal_clearApplied s ids
  have session : l₁.session s = ⟨l.isActive s, true, rest⟩ := by
    rw [session_written, if_pos rfl, ← held]
    rfl
  have refusal₁ : l₁.store.refusal = l.store.refusal := by rw [refusal_written, loaded.store]
  have mirrors (answers : l.store.refusal = none) : l₁.Mirrors s :=
    mirrors_tracks.written _ (loaded.store ▸ answers)
  have rests : Rests s l₁ (l₁.unfreeze s) := by
    refine unfreeze_rests (by rw [session]) (.inr (.inr ?_))
    by_cases answers : l.store.refusal = none
    · exact .inl (.inl (mirrors answers))
    · exact .inr (refusal₁ ▸ answers)
  rw [eq]
  refine ⟨?_, ?_, ?_, fun answers => ?_, fun refuses => ?_⟩
  · rw [isFrozen_unfreeze, if_pos rfl]
  · rw [rests.active, isActive, session]
  · rw [rests.changes, changes, session]
  · rw [rests.entry, mirrors (refusal ▸ answers), session]
    rfl
  · have same := entry_written (l := l.load s) (s := s) { l.session s with changes := rest }
    rw [loaded.store, if_neg (refusal ▸ refuses)] at same
    have before : l₁.raw? s = (l.load s).raw? s := by
      rw [Ledger.raw?, space_written, same, ← loaded.store]
      rfl
    rw [rests.entry, before, raw?_congr loaded.space loaded.store]

theorem Cleared.of_rests {l₀ : Ledger} (h : Cleared s ids l l') (rests : Rests s l₀ l) :
    Cleared s ids l₀ l' := by
  obtain ⟨free, active, left, written, unwritten⟩ := h
  rw [rests.active, rests.changes] at written
  rw [rests.active] at active
  rw [rests.changes] at left
  exact ⟨free, active, left, written, fun refuses => (unwritten refuses).trans rests.entry⟩

/-! ## Held sessions -/

theorem load_of_frozen (held : (l.session s).frozen = true) : l.load s = l := by
  obtain ⟨x, present⟩ := mem_of_frozen held
  exact load_of_mem (by rw [present]; rfl)

theorem replacing_of_held {α : Type} (held : (l.session s).frozen = true)
    (replacement : Session → Except Error (Session × α)) (kind : α → EventKind) :
    l.replacing s replacement kind = l.refused (.applyInProgress s) := by
  have loaded := load_of_frozen held
  simp only [replacing, loaded, held, if_true]

theorem record_of_held {edit : Edit} (held : (l.session s).frozen = true)
    (checked : edit.check = .ok ()) (id : ChangeId) (now : UInt64) :
    l.record s edit id now = l.refused (.refused (.applyInProgress s)) := by
  have loaded := load_of_frozen held
  simp only [record, checked, loaded, held, if_true]

end Ledger

/-! ## Applies that wait -/

namespace Engine

variable {e e' : Engine} {m : Move} {s : SessionId} {call : Apply.Call}

/-- Whatever would change the session or apply it is refused because of the apply under way, and
changes nothing at all. -/
structure Refuses (e : Engine) (s : SessionId) : Prop where
  activate : (e.mutate fun l => l.activate s) = (.error (.applyInProgress s), e)
  deactivate : ∀ discard,
    (e.mutate fun l => l.deactivate s discard) = (.error (.applyInProgress s), e)
  record : ∀ edit id now, edit.check = .ok () →
    (e.mutate fun l => l.record s edit id now) = (.error (.refused (.applyInProgress s)), e)
  remove : ∀ id, (e.mutate fun l => l.remove s id) = (.error (.applyInProgress s), e)
  clearAll : (e.mutate fun l => l.clearAll s) = (.error (.applyInProgress s), e)
  clearTable : ∀ table,
    (e.mutate fun l => l.clearTable s table) = (.error (.applyInProgress s), e)
  assignPrimaryKey : ∀ id (key : Row), key.isEmpty = false →
    (e.mutate fun l => l.assignPrimaryKey s id key) = (.error (.applyInProgress s), e)
  startApply : ∀ (request : Apply.Request) script id, request.session = s →
    e.startApply request script id = (.ended (.error (.applyInProgress s)), e)

theorem mutate_refused {ε α : Type} {mutation : Ledger → Ledger.Step ε α} {refusal : ε}
    (refused : mutation e.ledger = e.ledger.refused refusal) :
    e.mutate mutation = (.error refusal, e) := by
  unfold mutate
  rw [refused]
  rfl

theorem refuses_of_held (held : (e.ledger.session s).frozen = true)
    (applying : e.isApplying s = true) : e.Refuses s where
  activate := mutate_refused (Ledger.replacing_of_held held _ _)
  deactivate _ := mutate_refused (Ledger.replacing_of_held held _ _)
  record _ id now checked := mutate_refused (Ledger.record_of_held held checked id now)
  remove _ := mutate_refused (Ledger.replacing_of_held held _ _)
  clearAll := mutate_refused (Ledger.replacing_of_held held _ _)
  clearTable _ := mutate_refused (Ledger.replacing_of_held held _ _)
  assignPrimaryKey id key nonempty := by
    refine mutate_refused ?_
    simp only [Ledger.assignPrimaryKey, nonempty, Bool.false_eq_true, if_false]
    exact Ledger.replacing_of_held held _ _
  startApply request script id same := by
    subst same
    simp only [startApply, applying, if_true]

/-- What is so of the session of an apply that waits now and started before: everything is refused,
nothing has changed, and every end of the apply leaves what it should. -/
structure Atomic (before now : Engine) (call : Apply.Call) : Prop where
  waits : now.call? call.id = some call
  refuses : now.Refuses call.session
  rests : before.ledger.Rests call.session now.ledger
  failed : ∀ error, now.database.failure = some error →
    (∃ result, (now.finishApply call.id).1 = some result ∧ result.appliedCount = 0 ∧
      result.failure? = some error.driverMessage) ∧
    before.ledger.Returned call.session (now.perform (.finishApply call.id)).ledger
  dropped : before.ledger.Returned call.session (now.perform (.abandonApply call.id)).ledger
  committed : now.database.failure = none →
    (now.finishApply call.id).1 = some (.committed call.script.statementCount) ∧
    before.ledger.Cleared call.session call.script.changeIds
      (now.perform (.finishApply call.id)).ledger

/-- What holds while the apply waits. -/
structure InFlight (before : Engine) (call : Apply.Call) (now : Engine) : Prop where
  inStep : now.InStep
  coherent : now.Coherent
  waits : call ∈ now.calls
  rests : before.ledger.Rests call.session now.ledger

theorem call?_of_mem (distinct : (e.calls.map (·.id)).Nodup) (mem : call ∈ e.calls) :
    e.call? call.id = some call := by
  unfold call?
  cases found : e.calls.find? fun c => c.id = call.id with
  | none =>
    have differs := List.find?_eq_none.1 found call mem
    simp at differs
  | some c =>
    have same : c.id = call.id := by simpa using List.find?_some found
    rw [List.inj_on_of_nodup_map distinct (List.mem_of_find?_eq_some found) mem same]

theorem InFlight.finished {before : Engine} (h : InFlight before call e) :
    e.finishApply call.id = (some (e.settle call).1, (e.settle call).2) := by
  simp only [finishApply, call?_of_mem h.inStep.distinct h.waits]

theorem InFlight.committed_ledger {before : Engine} (h : InFlight before call e)
    (success : e.database.failure = none) :
    (e.perform (.finishApply call.id)).ledger =
      (e.ledger.clearApplied call.session call.script.changeIds).ledger.unfreeze call.session := by
  rw [perform, h.finished, (e.settle_committed call success).2.2.1]

theorem InFlight.atomic {before : Engine} (h : InFlight before call e) : Atomic before e call := by
  obtain ⟨slot, frozen, -⟩ := (h.inStep.standing call.session).held_of_mem h.waits
  have held : (e.ledger.session call.session).frozen = true := frozen
  have applying : e.isApplying call.session = true := by
    rw [isApplying, slot]
    rfl
  have found := call?_of_mem h.inStep.distinct h.waits
  refine ⟨found, refuses_of_held held applying, h.rests, fun error failing => ?_, ?_,
    fun success => ?_⟩
  · obtain ⟨result, -, ledger, -⟩ := e.settle_failed call failing
    refine ⟨⟨_, by rw [h.finished, result], rfl, rfl⟩, ?_⟩
    rw [perform, h.finished, ledger]
    exact (Ledger.returned_unfreeze held).of_rests h.rests
  · have ledger : (e.perform (.abandonApply call.id)).ledger =
        e.ledger.unfreeze call.session := by
      simp only [perform, abandonApply, found]
      exact (release_spec _ _ _ _).2.1
    rw [ledger]
    exact (Ledger.returned_unfreeze held).of_rests h.rests
  · obtain ⟨result, -⟩ := e.settle_committed call success
    refine ⟨by rw [h.finished, result], ?_⟩
    rw [h.committed_ledger success]
    exact (Ledger.cleared_unfreeze held _).of_rests h.rests

theorem Turn.still_waits (turn : e.Turn m e') (mem : call ∈ e.calls)
    (unfinished : m ≠ .finishApply call.id) (kept : m ≠ .abandonApply call.id)
    (open' : m ≠ .reopen) : call ∈ e'.calls := by
  cases turn with
  | quiet aside => rwa [aside.calls]
  | staged aside => rwa [aside.calls]
  | sent sent =>
    rw [sent.calls]
    exact List.mem_append_left _ mem
  | @dropped _ ended _ settings found ending ledger transactions calls =>
    have other : call.id ≠ ended.id := by
      intro same
      rcases ending with ⟨rfl, -⟩ | rfl
      · exact unfinished (by rw [same])
      · exact kept (by rw [same])
    rw [calls]
    exact List.mem_filter.2 ⟨mem, by simpa using other⟩
  | @committed ended _ settings found success ledger transactions calls =>
    have other : call.id ≠ ended.id := fun same => unfinished (by rw [same])
    rw [calls]
    exact List.mem_filter.2 ⟨mem, by simpa using other⟩
  | storage refusal => exact mem
  | reopen => exact absurd rfl open'

theorem Start.of_waiting {request : Apply.Request} {script : Script} {id : ApplyId}
    {result : Apply.Progress × Engine} (start : e.Start request script id result)
    (waiting : result.1 = .waiting call) :
    call = ⟨id, request.session, script⟩ ∧ call ∈ result.2.calls ∧
      result.2.ledger = (e.claimed request.session id).ledger := by
  cases start with
  | waiting idle free =>
    cases waiting
    exact ⟨rfl, List.mem_append_right _ (List.mem_singleton.2 rfl), rfl⟩
  | busy applying => cases waiting
  | asked idle => cases waiting
  | refused idle frozen => cases waiting
  | ended idle free answer checked => cases waiting

theorem Start.waiting_of_called {request : Apply.Request} {script : Script} {id : ApplyId}
    {result : Apply.Progress × Engine} (start : e.Start request script id result)
    (called : result.2.calls ≠ e.calls) : result.1 = .waiting ⟨id, request.session, script⟩ := by
  cases start with
  | waiting idle free => rfl
  | busy applying => exact absurd rfl called
  | asked idle => exact absurd rfl called
  | refused idle frozen => exact absurd rfl called
  | ended idle free answer checked => exact absurd (release_spec _ _ _ _).2.2.2.1 called

theorem waiting_of_gates (e : Engine) (request : Apply.Request) {script : Script} (id : ApplyId)
    (idle : e.isApplying request.session = false) (confirmed : request.isConfirmed = true)
    (free : (e.ledger.session request.session).frozen = false)
    (current : e.checkCurrent request.session script = .ok ()) (nonempty : script.isEmpty = false)
    (acknowledged : script.needsAcknowledgement = true → request.acknowledged = true) :
    (e.startApply request script id).1 = .waiting ⟨id, request.session, script⟩ ∧
      (e.startApply request script id).2.database = e.database.submit script.statements := by
  obtain ⟨e', eq, database, calls, -⟩ := History.sent_of_gates request id idle confirmed free current
    nonempty acknowledged
  have after : (e.startApply request script id).2 = e' := eq
  have called : (e.startApply request script id).2.calls ≠ e.calls := by
    rw [after, calls]
    simp
  exact ⟨(e.startApply_cases request script id).waiting_of_called called, after ▸ database⟩

theorem claimed_rests (e : Engine) (s : SessionId) (id : ApplyId) :
    e.ledger.Rests s (e.claimed s id).ledger := by
  have loaded := e.ledger.load_loaded s
  have first := (loaded.keeps s).rests
  refine first.trans (Ledger.rests_put ?_ ?_ s)
  · exact first.active.symm
  · exact first.changes.symm

theorem coherent_opened {settings : Settings} {store : Store} {database : Database}
    (opened : Engine.opened settings store database = .ok e) : e.Coherent := by
  obtain rfl := opened_eq opened
  exact ⟨.nil, fun call mem => absurd mem List.not_mem_nil⟩

end Engine

/-! ## Runs -/

namespace History

open Engine

variable {h h' : History}

/-- The moves between the start and the end of an apply. -/
def During (id : ApplyId) (h : History) (m : Move) : Prop :=
  h.NewApply m ∧ m ≠ .finishApply id ∧ m ≠ .abandonApply id ∧ m ≠ .reopen

/-- The store goes on taking writes. -/
def TakesWrites (_ : History) (m : Move) : Prop :=
  ∀ refusal, m = .storage refusal → refusal = none

theorem coherent_reached {settings : Settings} {store : Store} {database : Database} {e : Engine}
    {issued : List ChangeId} (opened : Engine.opened settings store database = .ok e)
    (reaches : Reaches NewApply (start e issued) h) : h.engine.Coherent :=
  reaches.invariant (p := fun h => h.engine.Coherent) (coherent_opened opened)
    fun h m coherent _ => (h.engine.perform_turn m).coherent coherent

theorem agrees_reached {settings : Settings} {store : Store} {database : Database} {e : Engine}
    {issued : List ChangeId} (opened : Engine.opened settings store database = .ok e)
    (answers : store.refusal = none) (reaches : Reaches TakesWrites (start e issued) h) :
    h.engine.ledger.Tracked Ledger.Agrees store.listing := by
  obtain rfl := opened_eq opened
  refine reaches.invariant (p := fun h => h.engine.ledger.Tracked Ledger.Agrees store.listing)
    ⟨answers, rfl, Ledger.agrees_onStore answers _⟩ fun h m tracked may => ?_
  refine (h.engine.perform_turn m).tracked Ledger.agrees_tracks tracked may fun _ => ?_
  exact ⟨tracked.answers, tracked.listing, Ledger.agrees_onStore tracked.answers _⟩

theorem inFlight_reached {request : Apply.Request} {script : Script} {id : ApplyId}
    {call : Apply.Call} (inStep : h.engine.InStep) (coherent : h.engine.Coherent)
    (new : h.engine.call? id = none)
    (sent : (h.engine.startApply request script id).1 = .waiting call)
    (during : Reaches (During id) (h.step (.startApply request script id)) h') :
    call = ⟨id, request.session, script⟩ ∧ InFlight h.engine call h'.engine := by
  have started := h.engine.startApply_cases request script id
  obtain ⟨rfl, mem, ledger⟩ := started.of_waiting sent
  refine ⟨rfl, during.invariant (p := fun h' => InFlight h.engine ⟨id, request.session, script⟩
    h'.engine) ?_ fun h' m flight may => ?_⟩
  · have turn := h.engine.perform_turn (.startApply request script id)
    refine ⟨(started.inStep inStep new).1, turn.coherent coherent, mem, ?_⟩
    have same : (h.step (.startApply request script id)).engine.ledger =
        (h.engine.claimed request.session id).ledger := ledger
    rw [same]
    exact h.engine.claimed_rests request.session id
  · obtain ⟨new, unfinished, kept, open'⟩ := may
    have turn := h'.engine.perform_turn m
    have after := turn.still_waits flight.waits unfinished kept open'
    have keeps := turn.waiting flight.coherent flight.waits after
    exact ⟨(inStep_step flight.inStep new).1, turn.coherent flight.coherent, after,
      flight.rests.trans keeps.rests⟩

/-- The apply of a script that passes the gates waits, and its commit takes out what the script covers. -/
theorem applied_of_gates (request : Apply.Request) {script : Script} (id : ApplyId)
    (inStep : h.engine.InStep) (coherent : h.engine.Coherent) (new : h.engine.call? id = none)
    (idle : h.engine.isApplying request.session = false) (confirmed : request.isConfirmed = true)
    (free : (h.engine.ledger.session request.session).frozen = false)
    (current : h.engine.checkCurrent request.session script = .ok ())
    (nonempty : script.isEmpty = false)
    (acknowledged : script.needsAcknowledgement = true → request.acknowledged = true)
    (success : h.engine.database.failure = none) :
    let sent := h.step (.startApply request script id)
    sent.engine.call? id = some ⟨id, request.session, script⟩ ∧
      (sent.step (.finishApply id)).engine.ledger.changes request.session =
        (h.engine.ledger.changes request.session).filter fun c => !script.changeIds.contains c.id := by
  obtain ⟨waiting, database⟩ := h.engine.waiting_of_gates request id idle confirmed free current
    nonempty acknowledged
  obtain ⟨-, flight⟩ := inFlight_reached inStep coherent new waiting .refl
  have success : (h.step (.startApply request script id)).engine.database.failure = none :=
    (congrArg Database.failure database).trans success
  exact ⟨flight.atomic.waits, (flight.atomic.committed success).2.left⟩

/-- From the moment an apply waits for the database until it ends, whatever happens in between, its
session is as it was at the start and everything that would change it is refused.  If the database
fails or the apply is dropped, the session is given back as it was; if it commits, exactly the changes
of the script have left it.  The text in the store stays until the commit, and is then that of what is
left, if the store takes it.  While the store takes writes, it agrees with all sessions. -/
theorem apply_atomic {settings : Settings} {store : Store} {database : Database} {e : Engine}
    {issued : List ChangeId} (opened : Engine.opened settings store database = .ok e) :
    (∀ h, Reaches NewApply (start e issued) h → ∀ request script id call,
      h.engine.call? id = none → (h.engine.startApply request script id).1 = .waiting call →
      ∀ h', Reaches (During id) (h.step (.startApply request script id)) h' →
        call = ⟨id, request.session, script⟩ ∧ Atomic h.engine h'.engine call) ∧
    (store.refusal = none → ∀ h, Reaches TakesWrites (start e issued) h →
      h.engine.ledger.store.refusal = none ∧ ∀ s, h.engine.ledger.Agrees s) := by
  refine ⟨fun h reaches request script id call new sent h' during => ?_,
    fun answers h reaches => ?_⟩
  · obtain ⟨same, flight⟩ := inFlight_reached (inStep_reached opened reaches)
      (coherent_reached opened reaches) new sent during
    exact ⟨same, flight.atomic⟩
  · have tracked := agrees_reached opened answers reaches
    exact ⟨tracked.answers, tracked.each⟩

end History

namespace Sample

open Engine History

theorem scripted_session :
    scripted.engine.ledger.session desk = ⟨true, false, renamed.engine.ledger.changes desk⟩ := by
  rw [scripted_ledger, (renamed.engine.ledger.visit_loaded desk).session]
  rfl

theorem scripted_entry :
    scripted.engine.ledger.raw? desk =
      Session.raw? desk ⟨true, false, renamed.engine.ledger.changes desk⟩ := by
  have loaded := renamed.engine.ledger.visit_loaded desk
  rw [scripted_ledger, Ledger.raw?_congr loaded.space loaded.store]
  rfl

theorem scripted_sent :
    ∃ script, (scripted.engine.startApply approval script tenth).1 =
        .waiting ⟨tenth, desk, script⟩ ∧
      (scripted.step (.startApply approval script tenth)).engine.database.failure = none ∧
      ((scripted.engine.ledger.changes desk).filter fun c => !script.changeIds.contains c.id) =
        [] := by
  obtain ⟨script, given, nonempty, changeIds, current, -⟩ := scripted_compiles
  obtain ⟨sent, database⟩ := scripted.engine.waiting_of_gates approval tenth rfl rfl rfl current
    nonempty fun _ => rfl
  refine ⟨script, sent, ?_, ?_⟩
  · exact congrArg Database.failure database
  · rw [Ledger.changes, scripted_session, changeIds]
    rfl

/-- While the script of the renaming is with the database, nothing else is done to the session; the
commit takes the renaming out, and the store knows. -/
theorem apply_atomic_renamed :
    ∃ script, let h := scripted.step (.startApply approval script tenth)
      h.engine.Refuses desk ∧
        (h.step (.finishApply tenth)).engine.ledger.changes desk = [] ∧
        (h.step (.finishApply tenth)).engine.ledger.Agrees desk := by
  obtain ⟨script, sent, success, nothing⟩ := scripted_sent
  obtain ⟨-, now⟩ := (apply_atomic engine_opened).1 scripted scripted_newApply approval script tenth _
    rfl sent _ .refl
  obtain ⟨-, cleared⟩ := now.committed success
  have takes : Reaches TakesWrites (start engine [])
      ((scripted.step (.startApply approval script tenth)).step (.finishApply tenth)) := by
    refine .step _ (.step _ (.step _ (.step _ (.step _ .refl ?_) ?_) ?_) ?_) ?_ <;>
      · rintro refusal eq
        cases eq
  have agrees := ((apply_atomic engine_opened).2 rfl _ takes).2 desk
  exact ⟨script, now.refuses, cleared.left.trans nothing, agrees⟩

/-- A store that still has the renaming does not agree with a ledger that has nothing left of it. -/
theorem not_agrees_of_renamed {l : Ledger} (space : l.space = renamed.engine.ledger.space)
    (entry : l.raw? desk =
      Session.raw? desk ⟨true, false, renamed.engine.ledger.changes desk⟩)
    (active : l.isActive desk = true) (empty : l.changes desk = []) : ¬ l.Agrees desk := by
  let d := Document.current desk true (renamed.engine.ledger.changes desk)
  rintro (mirrors | read)
  · have texts : d.render = (Document.current desk true []).render := by
      have same := entry.symm.trans mirrors
      have session : (l.session desk).raw? desk = Session.raw? desk ⟨true, false, []⟩ :=
        Session.raw?_congr active empty desk
      exact Option.some.inj (same.trans session)
    have differ : d.render ≠ (Document.current desk true []).render := by decide +kernel
    exact differ texts
  · have kept : l.kept? desk = some d := by
      have back := renamed_readsBack desk d.render rfl
      rw [← space] at back
      have text : l.store.entries.get? (Document.key l.space desk) = some d.render := entry
      simp only [Ledger.kept?, text, back]
      rfl
    have some : l.keptSession desk = ⟨true, false, renamed.engine.ledger.changes desk⟩ := by
      rw [Ledger.keptSession, kept]
      rfl
    have none := congrArg Session.changes (some.symm.trans read)
    rw [empty] at none
    cases none

/-- The store stops answering while the script of the renaming is with the database.  Its commit takes
the renaming out of the ledger, and the store still has it. -/
theorem applied_unwritten :
    ∃ script, let h : History :=
        (scripted.step (.startApply approval script tenth)).step (.storage (some "offline"))
      (scripted.engine.startApply approval script tenth).1 = .waiting ⟨tenth, desk, script⟩ ∧
      (h.engine.finishApply tenth).1 = some (.committed script.statementCount) ∧
      (h.step (.finishApply tenth)).engine.ledger.changes desk = [] ∧
      ¬ (h.step (.finishApply tenth)).engine.ledger.Agrees desk := by
  obtain ⟨script, sent, success, nothing⟩ := scripted_sent
  let h := (scripted.step (.startApply approval script tenth)).step (.storage (some "offline"))
  have inStep := inStep_reached engine_opened scripted_newApply
  have coherent := coherent_reached engine_opened scripted_newApply
  have during : Reaches (During tenth) (scripted.step (.startApply approval script tenth)) h := by
    refine .step _ .refl ⟨trivial, ?_, ?_, ?_⟩ <;> rintro ⟨⟩
  obtain ⟨-, flight⟩ := inFlight_reached inStep coherent rfl sent during
  obtain ⟨answer, cleared⟩ := flight.atomic.committed success
  let l := (h.step (.finishApply tenth)).engine.ledger
  have cleared : Ledger.Cleared desk script.changeIds scripted.engine.ledger l := cleared
  have refuses : l.store.refusal ≠ none := by
    rw [show l = _ from flight.committed_ledger success, Ledger.refusal_clearApplied]
    exact Option.some_ne_none _
  have active : l.isActive desk = true := by
    rw [cleared.active, Ledger.isActive, scripted_session]
  have empty : l.changes desk = [] := cleared.left.trans nothing
  have entry := (cleared.unwritten refuses).trans scripted_entry
  have reached : Reaches NewApply (start engine []) (h.step (.finishApply tenth)) :=
    .step _ (.step _ (.step _ scripted_newApply rfl) trivial) trivial
  have space : l.space = renamed.engine.ledger.space := (placed_reached engine_opened reached).2
  exact ⟨script, sent, answer, empty, not_agrees_of_renamed space entry active empty⟩

end Sample

end DraftLedger
