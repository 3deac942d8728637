import DraftLedger.Engine.Apply
import DraftLedger.Proofs.LedgerView

/-!
# The moves of an engine

Everything that can happen to an engine is a move.  An apply is two of them, its way to the database
and its way back, so that other moves may come in between.

* `Engine.Move`, `Engine.perform` : the moves and what they do.
* `Ledger.Thinned` : what the listeners of an event may have done to its session.
* `Ledger.Quiet` : what moves do to a ledger without staging anything.
* `Engine.Sent` : what is so when a script goes to the database.
* `Engine.Turn`, `Engine.perform_turn` : all that a move can have done.
-/

set_option autoImplicit false

namespace DraftLedger

namespace Engine

/-- Something that happens to an engine. -/
inductive Move where
  | activate (s : SessionId)
  | deactivate (s : SessionId) (discard : Bool)
  | record (s : SessionId) (edit : Edit) (id : ChangeId) (now : UInt64)
  | remove (s : SessionId) (id : ChangeId)
  | clearAll (s : SessionId)
  | clearTable (s : SessionId) (table : Table)
  | assignPrimaryKey (s : SessionId) (id : ChangeId) (key : Row)
  /-- The session is looked at in any other way than for a script. -/
  | look (s : SessionId)
  | generate (s : SessionId) (dialect : Dialect) (scope : Option Table)
  | setKeyColumns (table : Table) (columns : List String)
  | detectKeys (handle : ConnectionHandle) (table : Table)
  | subscribe (only : Option SessionId) (reaction : Reaction)
  | unsubscribe (listener : Nat)
  | startApply (request : Apply.Request) (script : Script) (id : ApplyId)
  | finishApply (id : ApplyId)
  | abandonApply (id : ApplyId)
  /-- The database reports other columns of a table from now on. -/
  | reportColumns (table : Table) (columns : List Column)
  /-- The next transaction of the database to end will fail. -/
  | failNext (error : ExecutionError)
  /-- The store turns calls away from now on, or answers them again. -/
  | storage (refusal : Option String)
  | reopen

/-- The engine after a move. -/
def perform (e : Engine) : Move → Engine
  | .activate s => (e.mutate fun l => l.activate s).2
  | .deactivate s discard => (e.mutate fun l => l.deactivate s discard).2
  | .record s edit id now => (e.mutate fun l => l.record s edit id now).2
  | .remove s id => (e.mutate fun l => l.remove s id).2
  | .clearAll s => (e.mutate fun l => l.clearAll s).2
  | .clearTable s table => (e.mutate fun l => l.clearTable s table).2
  | .assignPrimaryKey s id key => (e.mutate fun l => l.assignPrimaryKey s id key).2
  | .look s => (e.look s fun _ => ()).2
  | .generate s dialect scope => (e.generate s dialect scope).2
  | .setKeyColumns table columns => e.setKeyColumns table columns
  | .detectKeys handle table => (e.detectKeys handle table).2
  | .subscribe only reaction => { e with audience := e.audience.subscribe only reaction }
  | .unsubscribe listener => { e with audience := e.audience.unsubscribe listener }
  | .startApply request script id => (e.startApply request script id).2
  | .finishApply id => (e.finishApply id).2
  | .abandonApply id => e.abandonApply id
  | .reportColumns table columns => { e with database := e.database.setColumns table columns }
  | .failNext error => { e with database := e.database.failNext error }
  | .storage refusal => { e with ledger.store.refusal := refusal }
  | .reopen => e.reopened

end Engine

/-! ## Listeners -/

namespace Ledger

variable {l l' l'' : Ledger} {s t : SessionId}

/-- The second ledger is the first one after changes were taken out of a session that no apply
holds. -/
inductive Thinned (s : SessionId) (l : Ledger) : Ledger → Prop
  | refl : Thinned s l l
  | drop {l' : Ledger} (x : Session) (h : Thinned s l l') (free : (l'.session s).frozen = false)
      (free' : x.frozen = false) (fewer : x.changes.Sublist (l'.changes s)) :
      Thinned s l (l'.written s x)

theorem load_of_mem (h : (l.sessions.get? s).isSome = true) : l.load s = l := by
  obtain ⟨x, hx⟩ := Option.isSome_iff_exists.1 h
  simp [load, hx]

theorem visit_of_mem (h : (l.sessions.get? s).isSome = true) : l.visit s = l := by
  unfold visit
  rw [load_of_mem h, ite_self]

theorem Thinned.mem (h : Thinned s l l') (mem : (l.sessions.get? s).isSome = true) :
    (l'.sessions.get? s).isSome = true := by
  induction h with
  | refl => exact mem
  | drop x h free free' fewer ih => simp [get?_sessions_written]

theorem Thinned.trans (h : Thinned s l l') (h' : Thinned s l' l'') : Thinned s l l'' := by
  induction h' with
  | refl => exact h
  | drop x h' free free' fewer ih => exact .drop x ih free free' fewer

/-- What a listener does with a session in memory takes changes out of it, if anything. -/
theorem clearAll_thinned (mem : (l.sessions.get? s).isSome = true) :
    Thinned s l (l.clearAll s).ledger := by
  rcases l.replacing_cases s (fun session => .ok (keeping (fun _ => false) session)) .cleared with
    ⟨e, eq⟩ | ⟨x, answer, free, replaced, eq⟩
  · rw [clearAll, eq, load_of_mem mem]
    exact .refl
  · rw [clearAll, eq, load_of_mem mem]
    cases replaced
    exact .drop _ .refl free free List.filter_sublist

end Ledger

namespace Audience

variable {event : Event}

theorem note_ledger (state : Ledger × Audience) (listener : Listener)
    (mem : (state.1.sessions.get? event.session).isSome = true) :
    (note event state listener).1 = state.1 := by
  unfold note
  by_cases cared : cares listener event = true
  · simp only [cared, if_true]
    cases listener.reaction with
    | count => exact Ledger.visit_of_mem mem
    | note => rfl
    | clear => rfl
  · simp only [cared, Bool.false_eq_true, if_false]

theorem foldl_note_ledger (listeners : List Listener) (state : Ledger × Audience)
    (mem : (state.1.sessions.get? event.session).isSome = true) :
    (listeners.foldl (note event) state).1 = state.1 := by
  induction listeners generalizing state with
  | nil => rfl
  | cons listener rest ih =>
    have same := note_ledger state listener mem
    rw [List.foldl_cons, ih _ (same ▸ mem), same]

theorem hear_thinned (state : Ledger × Audience) (listener : Listener)
    (mem : (state.1.sessions.get? event.session).isSome = true) :
    Ledger.Thinned event.session state.1 (hear event state listener).1 := by
  have noted := note_ledger state listener mem
  unfold hear
  simp only [noted]
  split
  · split
    · have thinned := Ledger.clearAll_thinned mem
      cases told : (state.1.clearAll event.session).event with
      | none => exact thinned
      | some cleared =>
        have same : cleared.session = event.session := by
          rcases state.1.replacing_cases event.session
            (fun session => .ok (Ledger.keeping (fun _ => false) session)) .cleared with
            ⟨e, eq⟩ | ⟨x, answer, -, -, eq⟩
          · rw [Ledger.clearAll, eq] at told
            cases told
          · rw [Ledger.clearAll, eq] at told
            cases told
            rfl
        simp only [noteAll]
        rw [foldl_note_ledger _ _ (same ▸ thinned.mem mem)]
        exact thinned
    · exact .refl
  · exact .refl

theorem announce_thinned (event : Event) (state : Ledger × Audience)
    (mem : (state.1.sessions.get? event.session).isSome = true) :
    Ledger.Thinned event.session state.1 (announce event state).1 := by
  unfold announce
  generalize state.2.listeners = listeners
  induction listeners generalizing state with
  | nil => exact .refl
  | cons listener rest ih =>
    have heard := hear_thinned state listener mem
    exact heard.trans (ih _ (heard.mem mem))

theorem announce_ledger (event : Event) (state : Ledger × Audience)
    (mem : (state.1.sessions.get? event.session).isSome = true)
    (unstaged : ∀ outcome, event.kind ≠ .recorded outcome) :
    (announce event state).1 = state.1 := by
  unfold announce
  generalize state.2.listeners = listeners
  induction listeners generalizing state with
  | nil => rfl
  | cons listener rest ih =>
    have same : (hear event state listener).1 = state.1 := by
      unfold hear
      simp only
      split
      · next outcome _ staged => exact absurd staged (unstaged outcome)
      · exact note_ledger state listener mem
    rw [List.foldl_cons, ih _ (same ▸ mem), same]

end Audience

namespace Ledger

variable {l l' l'' : Ledger} {s t : SessionId}

/-! ## What a move does to the ledger -/

/-- The second ledger is the first one without a session in memory of which there is nothing to
know. -/
structure Forgets (s : SessionId) (l l' : Ledger) : Prop where
  space : l'.space = l.space
  store : l'.store = l.store
  keyColumns : l'.keyColumns = l.keyColumns
  vacant : (l.session s).isVacant = true
  gone : l'.sessions.get? s = none
  others : ∀ t, t ≠ s → l'.sessions.get? t = l.sessions.get? t

theorem Forgets.nothing {l l' : Ledger} {s : SessionId} (h : Forgets s l l') :
    l.isActive s = false ∧ (l.session s).frozen = false ∧ l.changes s = [] := by
  have vacant := h.vacant
  simp only [Session.isVacant, Bool.and_eq_true, Bool.not_eq_true', List.isEmpty_iff] at vacant
  exact ⟨vacant.1.1, vacant.1.2, vacant.2⟩

/-- A session that is given back stays in memory unless there is nothing to know about it. -/
theorem unfreeze_cases (l : Ledger) (s : SessionId) :
    (l.sessions.get? s = none ∧ l.unfreeze s = l) ∨
    ∃ x, l.sessions.get? s = some x ∧
      (l.unfreeze s = l.put s { x with frozen := false } ∨
        Forgets s (l.put s { x with frozen := false }) (l.unfreeze s)) := by
  unfold unfreeze
  cases present : l.sessions.get? s with
  | none => exact .inl ⟨rfl, rfl⟩
  | some x =>
    refine .inr ⟨x, rfl, ?_⟩
    simp only
    split
    · next vacant =>
      refine .inr ⟨rfl, rfl, rfl, ?_, ?_, fun t other => ?_⟩
      · rw [session_put, if_pos rfl]
        exact vacant
      · simp [Dict.get?_erase]
      · simp [put, Dict.get?_erase, Dict.get?_insert, other]
    · exact .inl rfl

theorem unfreeze_keeps {p : Ledger → Prop} (first : p l)
    (put : ∀ x, l.sessions.get? s = some x → p (l.put s { x with frozen := false }))
    (forgets : ∀ l₁ l₂, Forgets s l₁ l₂ → p l₁ → p l₂) : p (l.unfreeze s) := by
  rcases l.unfreeze_cases s with ⟨-, eq⟩ | ⟨x, present, eq | forgotten⟩
  · rw [eq]
    exact first
  · rw [eq]
    exact put x present
  · exact forgets _ _ forgotten (put x present)

/-- What moves do to the sessions in memory and their documents without staging anything and without
an apply. -/
inductive Trims : Ledger → Ledger → Prop
  | refl (l : Ledger) : Trims l l
  | thinned {l l' : Ledger} {s : SessionId} (h : Thinned s l l') : Trims l l'
  | keyed {l : Ledger} {s : SessionId} {id : ChangeId} {key : Row} {changes : List Change}
      (free : (l.session s).frozen = false) (nonempty : key.isEmpty = false)
      (h : withAssignedKey (l.changes s) id key = .ok changes) :
      Trims l (l.written s { l.session s with changes })
  | forgets {l l' : Ledger} {s : SessionId} (h : Forgets s l l') : Trims l l'
  | keyColumns {l : Ledger} (table : Table) (columns : List String) :
      Trims l (l.setKeyColumns table columns)
  | trans {l l' l'' : Ledger} (h : Trims l l') (h' : Trims l' l'') : Trims l l''

/-- What such moves do: they bring sessions into memory, and go on from there. -/
def Quiet (l l' : Ledger) : Prop := ∃ l₁, l.Loaded l₁ ∧ Trims l₁ l'

theorem Loaded.quiet (h : l.Loaded l') : Quiet l l' := ⟨l', h, .refl l'⟩

theorem Trims.quiet (h : Trims l l') : Quiet l l' := ⟨l, .refl l, h⟩

theorem Quiet.trims (h : Quiet l l') (h' : Trims l' l'') : Quiet l l'' := by
  obtain ⟨l₁, loaded, trims⟩ := h
  exact ⟨l₁, loaded, trims.trans h'⟩

theorem Thinned.space (h : Thinned s l l') : l'.space = l.space := by
  induction h with
  | refl => rfl
  | drop x h free free' fewer ih => exact (space_written x).trans ih

theorem Trims.space (h : Trims l l') : l'.space = l.space := by
  induction h with
  | refl => rfl
  | thinned h => exact h.space
  | keyed free nonempty h => exact space_written _
  | forgets h => exact h.space
  | keyColumns table columns => rfl
  | trans _ _ ih ih' => exact ih'.trans ih

theorem Quiet.space (h : Quiet l l') : l'.space = l.space := by
  obtain ⟨l₁, loaded, trims⟩ := h
  exact trims.space.trans loaded.space

theorem space_unfreeze (l : Ledger) (s : SessionId) : (l.unfreeze s).space = l.space :=
  unfreeze_keeps (p := fun l' => l'.space = l.space) rfl (fun _ _ => rfl)
    fun _ _ forgets same => forgets.space.trans same

theorem replacing_quiet {α : Type} (l : Ledger) (s : SessionId)
    (replacement : Session → Except Error (Session × α)) (kind : α → EventKind)
    (fewer : ∀ x y a, replacement x = .ok (y, a) →
      y.frozen = x.frozen ∧ y.changes.Sublist x.changes) :
    Quiet l (l.replacing s replacement kind).ledger := by
  have loaded := l.load_loaded s
  rcases l.replacing_cases s replacement kind with ⟨e, eq⟩ | ⟨x, answer, free, replaced, eq⟩
  · rw [eq]
    exact loaded.quiet
  · rw [eq]
    obtain ⟨frozen, sub⟩ := fewer _ _ _ replaced
    have same := loaded.session s
    refine ⟨_, loaded, .thinned (.drop x .refl (same ▸ free) (frozen.trans free) ?_)⟩
    rw [changes, same]
    exact sub

theorem locate?_eq_some {id : ChangeId} {changes before after : List Change} {found : Change}
    (h : locate? id changes = some (before, found, after)) :
    changes = before ++ found :: after ∧ found.id = id := by
  induction changes generalizing before with
  | nil => cases h
  | cons c rest ih =>
    simp only [locate?] at h
    split at h
    · next same =>
      cases h
      exact ⟨rfl, same⟩
    · obtain ⟨parts, located, eq⟩ := Option.map_eq_some_iff.1 h
      obtain ⟨before', found', after'⟩ := parts
      cases eq
      obtain ⟨rfl, same⟩ := ih located
      exact ⟨rfl, same⟩

theorem activate_quiet (l : Ledger) (s : SessionId) : Quiet l (l.activate s).ledger :=
  l.replacing_quiet s _ _ fun x y a h => by
    cases h
    exact ⟨rfl, List.Sublist.refl _⟩

theorem deactivate_quiet (l : Ledger) (s : SessionId) (discard : Bool) :
    Quiet l (l.deactivate s discard).ledger :=
  l.replacing_quiet s _ _ fun x y a h => by
    cases h
    refine ⟨rfl, ?_⟩
    cases discard
    · exact List.Sublist.refl _
    · exact List.nil_sublist _

theorem remove_quiet (l : Ledger) (s : SessionId) (id : ChangeId) :
    Quiet l (l.remove s id).ledger :=
  l.replacing_quiet s _ _ fun x y a h => by
    split at h
    · cases h
    · next before found after located =>
      obtain ⟨eq, -⟩ := locate?_eq_some located
      cases h
      exact ⟨rfl, eq ▸ (List.sublist_cons_self _ _).append_left _⟩

theorem clearAll_quiet (l : Ledger) (s : SessionId) : Quiet l (l.clearAll s).ledger :=
  l.replacing_quiet s _ _ fun x y a h => by
    cases h
    exact ⟨rfl, List.filter_sublist⟩

theorem clearTable_quiet (l : Ledger) (s : SessionId) (table : Table) :
    Quiet l (l.clearTable s table).ledger :=
  l.replacing_quiet s _ _ fun x y a h => by
    cases h
    exact ⟨rfl, List.filter_sublist⟩

theorem assignPrimaryKey_quiet (l : Ledger) (s : SessionId) (id : ChangeId) (key : Row) :
    Quiet l (l.assignPrimaryKey s id key).ledger := by
  unfold assignPrimaryKey
  split
  · exact (Loaded.refl l).quiet
  next nonempty =>
  have loaded := l.load_loaded s
  rcases l.replacing_cases s (fun session => (withAssignedKey session.changes id key).map
    fun changes => ({ session with changes }, ())) (fun _ => .keyAssigned id) with
    ⟨e, eq⟩ | ⟨x, answer, free, replaced, eq⟩
  · rw [eq]
    exact loaded.quiet
  · rw [eq]
    cases assigned : withAssignedKey (l.session s).changes id key with
    | error e => rw [assigned] at replaced; cases replaced
    | ok changes =>
      rw [assigned] at replaced
      cases replaced
      have same := loaded.session s
      have assigned' : withAssignedKey ((l.load s).changes s) id key = .ok changes := by
        rw [Ledger.changes, same]
        exact assigned
      refine ⟨_, loaded, ?_⟩
      rw [← same]
      exact .keyed (same ▸ free) (by simpa using nonempty) assigned'

end Ledger

/-! ## What a move does to the engine -/

namespace Engine

variable {e e' : Engine}

/-- Everything but the ledger, the listeners and the slots stays. -/
structure Aside (e e' : Engine) : Prop where
  settings : e'.settings = e.settings
  transactions : e'.database.transactions = e.database.transactions
  calls : e'.calls = e.calls

theorem Aside.refl (e : Engine) : Aside e e := ⟨rfl, rfl, rfl⟩

/-- The script passed the gates and went to the database, and its session is held. -/
structure Sent (e : Engine) (request : Apply.Request) (script : Script) (id : ApplyId)
    (e' : Engine) : Prop where
  settings : e'.settings = e.settings
  idle : e.isApplying request.session = false
  confirmed : request.isConfirmed = true
  free : (e.ledger.session request.session).frozen = false
  current : e.checkCurrent request.session script = .ok ()
  nonempty : script.isEmpty = false
  acknowledged : script.needsAcknowledgement = true → request.acknowledged = true
  ledger : e'.ledger = (e.ledger.load request.session).put request.session
    { e.ledger.session request.session with frozen := true }
  transactions : e'.database.transactions = e.database.transactions ++ [script.statements]
  calls : e'.calls = e.calls ++ [⟨id, request.session, script⟩]

/-- What a move may have done. -/
inductive Turn (e : Engine) : Move → Engine → Prop
  | quiet {m : Move} {e' : Engine} (aside : Aside e e') (ledger : e.ledger.Quiet e'.ledger) :
      Turn e m e'
  /-- An edit was staged, and then listeners may have taken changes out. -/
  | staged {s : SessionId} {edit : Edit} {id : ChangeId} {now : UInt64} {stamp : Stamp}
      {e' : Engine} {l : Ledger} {changes : List Change} {outcome : Outcome} (aside : Aside e e')
      (loaded : e.ledger.Loaded l) (checked : edit.check = .ok ())
      (free : (e.ledger.session s).frozen = false) (active : (e.ledger.session s).active = true)
      (reading : (e.ledger.load s).clock.next? now = some stamp)
      (staged : stage (e.ledger.changes s)
          ((edit.withRegisteredKey e.ledger.keyColumns).toChange id stamp) = .ok (changes, outcome))
      (ledger : Ledger.Thinned s (l.written s { e.ledger.session s with changes }) e'.ledger)
      (unheard : e.audience.listeners = [] →
        e'.ledger = l.written s { e.ledger.session s with changes }) :
      Turn e (.record s edit id now) e'
  | sent {request : Apply.Request} {script : Script} {id : ApplyId} {e' : Engine}
      (sent : e.Sent request script id e') : Turn e (.startApply request script id) e'
  /-- A transaction failed or was given up. -/
  | dropped {m : Move} {call : Apply.Call} {e' : Engine} (settings : e'.settings = e.settings)
      (found : e.call? call.id = some call)
      (ending : m = .finishApply call.id ∧ e.database.failure ≠ none ∨ m = .abandonApply call.id)
      (ledger : e'.ledger = e.ledger.unfreeze call.session)
      (transactions : e'.database.transactions = e.database.transactions)
      (calls : e'.calls = e.calls.filter fun c => c.id ≠ call.id) :
      Turn e m e'
  /-- A transaction was committed. -/
  | committed {call : Apply.Call} {e' : Engine} (settings : e'.settings = e.settings)
      (found : e.call? call.id = some call) (success : e.database.failure = none)
      (ledger : e'.ledger =
        (e.ledger.clearApplied call.session call.script.changeIds).ledger.unfreeze call.session)
      (transactions : e'.database.transactions = e.database.transactions)
      (calls : e'.calls = e.calls.filter fun c => c.id ≠ call.id) :
      Turn e (.finishApply call.id) e'
  | storage (refusal : Option String) :
      Turn e (.storage refusal) { e with ledger.store.refusal := refusal }
  | reopen : Turn e .reopen e.reopened

/-! ### Mutations -/

/-- A mutation tells of one session, if it tells anything, and has that session in memory. -/
def TellsOf {ε α : Type} (step : Ledger.Step ε α) (s : SessionId) : Prop :=
  ∀ event ∈ step.event, event.session = s ∧ (step.ledger.sessions.get? s).isSome = true

theorem replacing_tellsOf {α : Type} (l : Ledger) (s : SessionId)
    (replacement : Session → Except Error (Session × α)) (kind : α → EventKind) :
    TellsOf (l.replacing s replacement kind) s := by
  rcases l.replacing_cases s replacement kind with ⟨e, eq⟩ | ⟨x, answer, -, -, eq⟩
  · rw [eq]
    exact fun event h => by cases h
  · rw [eq]
    intro event h
    cases h
    exact ⟨rfl, by simp [Ledger.get?_sessions_written]⟩

theorem hearing_aside {ε α : Type} (e : Engine) (step : Ledger.Step ε α) :
    Aside e (e.hearing step) := by
  unfold hearing
  split <;> exact ⟨rfl, rfl, rfl⟩

theorem hearing_thinned {ε α : Type} (e : Engine) {step : Ledger.Step ε α} {s : SessionId}
    (tells : TellsOf step s) : Ledger.Thinned s step.ledger (e.hearing step).ledger := by
  unfold hearing
  cases told : step.event with
  | none => exact .refl
  | some event =>
    obtain ⟨rfl, mem⟩ := tells event told
    exact Audience.announce_thinned event (step.ledger, e.audience) mem

theorem hearing_unheard {ε α : Type} {e : Engine} (step : Ledger.Step ε α)
    (unheard : e.audience.listeners = []) : (e.hearing step).ledger = step.ledger := by
  unfold hearing
  cases step.event with
  | none => rfl
  | some event => simp [Audience.announce, unheard]

theorem mutate_quiet {ε α : Type} {m : Move} (e : Engine) (mutation : Ledger → Ledger.Step ε α)
    {s : SessionId} (quiet : e.ledger.Quiet (mutation e.ledger).ledger)
    (tells : TellsOf (mutation e.ledger) s) : e.Turn m (e.mutate mutation).2 :=
  .quiet (hearing_aside e _) (quiet.trims (.thinned (hearing_thinned e tells)))

theorem record_turn (e : Engine) (s : SessionId) (edit : Edit) (id : ChangeId) (now : UInt64) :
    e.Turn (.record s edit id now) (e.perform (.record s edit id now)) := by
  have aside := hearing_aside e (e.ledger.record s edit id now)
  rcases e.ledger.record_cases s edit id now with
    idle | ⟨stamp, changes, outcome, checked, free, active, reading, staged, eq⟩
  · have tells : TellsOf (e.ledger.record s edit id now) s := fun event h => by
      rw [idle.event] at h
      cases h
    exact mutate_quiet e (fun l => l.record s edit id now) idle.ledger.quiet tells
  · have loaded := (e.ledger.load_loaded s).trans (Ledger.withClock_loaded _ ⟨stamp⟩)
    have tells : TellsOf (e.ledger.record s edit id now) s := fun event h => by
      rw [eq] at h ⊢
      cases h
      exact ⟨rfl, by simp [Ledger.get?_sessions_written]⟩
    have thinned := hearing_thinned e tells
    have unheard := hearing_unheard (e := e) (e.ledger.record s edit id now)
    rw [eq] at thinned unheard aside
    have same : (e.perform (.record s edit id now)) = e.hearing (e.ledger.record s edit id now) :=
      rfl
    rw [same, eq]
    exact .staged aside loaded checked free active reading staged thinned unheard

theorem assignPrimaryKey_tellsOf (l : Ledger) (s : SessionId) (id : ChangeId) (key : Row) :
    TellsOf (l.assignPrimaryKey s id key) s := by
  unfold Ledger.assignPrimaryKey
  split
  · exact fun event h => by cases h
  · exact replacing_tellsOf _ _ _ _

/-! ### Applies -/

/-- What an apply does when it takes its session: the session is held in memory, unless another
apply holds it. -/
theorem claim_cases (e : Engine) (s : SessionId) (id : ApplyId) :
    ((e.ledger.session s).frozen = true ∧
      e.claim s id = (.error (.applyInProgress s), { e with ledger := e.ledger.load s })) ∨
    ((e.ledger.session s).frozen = false ∧ ∃ e', e.claim s id = (.ok (), e') ∧
      e'.ledger = (e.ledger.load s).put s { e.ledger.session s with frozen := true } ∧
      e'.settings = e.settings ∧ e'.database = e.database ∧ e'.calls = e.calls ∧
      e'.audience = e.audience) := by
  unfold claim Ledger.freeze
  simp only [(e.ledger.load_loaded s).session s]
  cases frozen : (e.ledger.session s).frozen with
  | true => exact .inl ⟨rfl, by simp⟩
  | false => exact .inr ⟨rfl, _, rfl, rfl, rfl, rfl, rfl, rfl⟩

/-- Taking a session and giving it back at once forgets it, if there is nothing to know about it. -/
theorem freeze_unfreeze_quiet (l : Ledger) (s : SessionId)
    (free : (l.session s).frozen = false) :
    Ledger.Quiet l
      (((l.load s).put s { l.session s with frozen := true }).unfreeze s) := by
  have back : { { l.session s with frozen := true } with frozen := false } = l.session s := by
    rw [← free]
  have loaded : l.Loaded (((l.load s).put s { l.session s with frozen := true }).put s
      (l.session s)) := by
    refine (l.load_loaded s).trans ⟨rfl, rfl, rfl, fun t => .inl ?_⟩
    by_cases same : t = s
    · subst same
      simp [Ledger.put, l.get?_load]
    · simp [Ledger.put, Dict.get?_insert, same]
  rcases Ledger.unfreeze_cases ((l.load s).put s { l.session s with frozen := true }) s with
    ⟨absent, -⟩ | ⟨x, present, given⟩
  · simp [Ledger.put] at absent
  · obtain rfl : { l.session s with frozen := true } = x := by simpa [Ledger.put] using present
    rw [back] at given
    rcases given with eq | forgets
    · rw [eq]
      exact loaded.quiet
    · exact ⟨_, loaded, .forgets forgets⟩

theorem release_spec (e : Engine) (s : SessionId) (id : ApplyId) (phase : Apply.Phase) :
    (e.release s id phase).settings = e.settings ∧
      (e.release s id phase).ledger = e.ledger.unfreeze s ∧
      (e.release s id phase).database = e.database ∧ (e.release s id phase).calls = e.calls ∧
      (e.release s id phase).audience = e.audience := by
  unfold release
  simp only
  split
  · split <;> exact ⟨rfl, rfl, rfl, rfl, rfl⟩
  · exact ⟨rfl, rfl, rfl, rfl, rfl⟩

/-- An apply that takes its session and gives it back before anything goes to the database is
quiet. -/
theorem claim_release_quiet {m : Move} (e : Engine) {e' : Engine} (s : SessionId) (id : ApplyId)
    (phase : Apply.Phase) (free : (e.ledger.session s).frozen = false)
    (settings : e'.settings = e.settings) (database : e'.database = e.database)
    (calls : e'.calls = e.calls)
    (ledger : e'.ledger = (e.ledger.load s).put s { e.ledger.session s with frozen := true }) :
    e.Turn m (e'.release s id phase) := by
  obtain ⟨settings', ledger', database', calls', -⟩ := e'.release_spec s id phase
  refine .quiet ⟨settings'.trans settings, ?_, calls'.trans calls⟩ ?_
  · rw [database', database]
  · rw [ledger', ledger]
    exact freeze_unfreeze_quiet e.ledger s free

theorem checkCurrent_claimed {s : SessionId}
    (ledger : e'.ledger = (e.ledger.load s).put s { e.ledger.session s with frozen := true })
    (settings : e'.settings = e.settings) (script : Script) :
    e'.checkCurrent s script = e.checkCurrent s script := by
  have keyColumns : e'.ledger.keyColumns = e.ledger.keyColumns := by
    rw [ledger]
    exact (e.ledger.load_loaded s).keyColumns
  have changes : e'.ledger.changes s = e.ledger.changes s := by
    rw [ledger, Ledger.changes, Ledger.session_put, if_pos rfl]
    rfl
  simp only [checkCurrent, settings, keyColumns, changes]

theorem startApply_turn (e : Engine) (request : Apply.Request) (script : Script) (id : ApplyId) :
    e.Turn (.startApply request script id) (e.perform (.startApply request script id)) := by
  have still (e' : Engine) (aside : Aside e e') (same : e'.ledger = e.ledger) :
      e.Turn (.startApply request script id) e' :=
    .quiet aside (same ▸ (Ledger.Loaded.refl e.ledger).quiet)
  unfold perform startApply
  simp only
  split
  · exact still _ (.refl e) rfl
  next idle =>
  split
  · exact still _ ⟨rfl, rfl, rfl⟩ rfl
  next confirmed =>
  have confirmed : request.isConfirmed = true := by simpa using confirmed
  rcases claim_cases e request.session id with
    ⟨-, eq⟩ | ⟨free, e', eq, ledger, settings, database, calls, -⟩
  · simp only [eq]
    exact .quiet ⟨rfl, rfl, rfl⟩ (e.ledger.load_loaded request.session).quiet
  · simp only [eq]
    rw [checkCurrent_claimed ledger settings]
    have back (phase : Apply.Phase) := claim_release_quiet (m := .startApply request script id) e
      request.session id phase free settings database calls ledger
    split
    · exact back _
    next current =>
    split
    · exact back _
    next nonempty =>
    split
    · exact back _
    next acknowledged =>
    refine .sent {
      settings, confirmed, free, current, ledger
      idle := by simpa using idle
      nonempty := by simpa using nonempty
      acknowledged := fun needed => by simpa [needed] using acknowledged
      transactions := by simp [database, Database.submit]
      calls := by simp [calls] }

theorem call?_id {id : ApplyId} {call : Apply.Call} (h : e.call? id = some call) : call.id = id := by
  simpa using List.find?_some h

theorem hearing_clearApplied (e : Engine) (l : Ledger) (s : SessionId) (ids : List ChangeId) :
    (e.hearing (l.clearApplied s ids)).ledger = (l.clearApplied s ids).ledger := by
  have mem : ((l.clearApplied s ids).ledger.sessions.get? s).isSome = true := by
    simp [Ledger.clearApplied_ledger, Ledger.get?_sessions_written]
  exact Audience.announce_ledger ⟨s, .cleared _⟩ (_, e.audience) mem
    fun outcome h => by cases h

theorem settle_failed (e : Engine) (call : Apply.Call) {error : ExecutionError}
    (failing : e.database.failure = some error) :
    (e.settle call).1 = .failed error.driverMessage ∧ (e.settle call).2.settings = e.settings ∧
      (e.settle call).2.ledger = e.ledger.unfreeze call.session ∧
      (e.settle call).2.database.transactions = e.database.transactions ∧
      (e.settle call).2.calls = e.calls.filter fun c => c.id ≠ call.id := by
  let e₁ : Engine := { e.withoutCall call.id with database := { e.database with failure := none } }
  have eq : e.settle call =
      (.failed error.driverMessage, e₁.release call.session call.id .failed) := by
    simp only [settle, Database.settle, failing]
    rfl
  obtain ⟨settings, ledger, database, calls, -⟩ := release_spec e₁ call.session call.id .failed
  have transactions := congrArg Database.transactions database
  rw [eq]
  exact ⟨rfl, settings, ledger, transactions, calls⟩

theorem settle_committed (e : Engine) (call : Apply.Call) (success : e.database.failure = none) :
    (e.settle call).1 = .committed call.script.statementCount ∧
      (e.settle call).2.settings = e.settings ∧
      (e.settle call).2.ledger =
        (e.ledger.clearApplied call.session call.script.changeIds).ledger.unfreeze call.session ∧
      (e.settle call).2.database.transactions = e.database.transactions ∧
      (e.settle call).2.calls = e.calls.filter fun c => c.id ≠ call.id := by
  let e₁ : Engine := { e.withoutCall call.id with database := { e.database with failure := none } }
  let step := e.ledger.clearApplied call.session call.script.changeIds
  have eq : e.settle call = (.committed call.script.statementCount,
      (e₁.hearing step).release call.session call.id .succeeded) := by
    simp only [settle, Database.settle, success]
    rfl
  have aside : Aside e₁ (e₁.hearing step) := hearing_aside e₁ step
  have same : (e₁.hearing step).ledger = step.ledger := hearing_clearApplied e₁ _ _ _
  obtain ⟨settings, ledger, database, calls, -⟩ :=
    release_spec (e₁.hearing step) call.session call.id .succeeded
  rw [eq]
  exact ⟨rfl, settings.trans aside.settings,
    ledger.trans (congrArg (Ledger.unfreeze · call.session) same),
    (congrArg Database.transactions database).trans aside.transactions, calls.trans aside.calls⟩

theorem finishApply_turn (e : Engine) (id : ApplyId) :
    e.Turn (.finishApply id) (e.perform (.finishApply id)) := by
  unfold perform finishApply
  simp only
  split
  · exact .quiet (.refl e) (Ledger.Loaded.refl e.ledger).quiet
  next call found =>
  obtain rfl := call?_id found
  cases ending : e.database.failure with
  | some error =>
    obtain ⟨-, settings, ledger, transactions, calls⟩ := e.settle_failed call ending
    exact .dropped settings found (.inl ⟨rfl, by simp [ending]⟩) ledger transactions calls
  | none =>
    obtain ⟨-, settings, ledger, transactions, calls⟩ := e.settle_committed call ending
    exact .committed settings found ending ledger transactions calls

theorem abandonApply_turn (e : Engine) (id : ApplyId) :
    e.Turn (.abandonApply id) (e.perform (.abandonApply id)) := by
  unfold perform abandonApply
  simp only
  split
  · exact .quiet (.refl e) (Ledger.Loaded.refl e.ledger).quiet
  next call found =>
  obtain rfl := call?_id found
  obtain ⟨settings, ledger, database, calls, -⟩ :=
    release_spec (e.withoutCall call.id) call.session call.id .idle
  exact .dropped settings found (.inr rfl) ledger (by rw [database]; rfl) calls

/-! ### All moves -/

theorem detectKeys_turn (e : Engine) (handle : ConnectionHandle) (table : Table) :
    e.Turn (.detectKeys handle table) (e.perform (.detectKeys handle table)) := by
  have still : e.ledger.Quiet e.ledger := (Ledger.Loaded.refl e.ledger).quiet
  unfold perform detectKeys
  simp only
  split
  · exact .quiet (.refl e) still
  · split
    · exact .quiet (.refl e) still
    · exact .quiet ⟨rfl, rfl, rfl⟩ (Ledger.Trims.keyColumns _ _).quiet

/-- Every move does one of the things that a move may do. -/
theorem perform_turn (e : Engine) (m : Move) : e.Turn m (e.perform m) := by
  have still : e.ledger.Quiet e.ledger := (Ledger.Loaded.refl e.ledger).quiet
  cases m with
  | activate s => exact mutate_quiet e _ (e.ledger.activate_quiet s) (replacing_tellsOf _ s _ _)
  | deactivate s discard =>
    exact mutate_quiet e _ (e.ledger.deactivate_quiet s discard) (replacing_tellsOf _ s _ _)
  | record s edit id now => exact record_turn e s edit id now
  | remove s id => exact mutate_quiet e _ (e.ledger.remove_quiet s id) (replacing_tellsOf _ s _ _)
  | clearAll s => exact mutate_quiet e _ (e.ledger.clearAll_quiet s) (replacing_tellsOf _ s _ _)
  | clearTable s table =>
    exact mutate_quiet e _ (e.ledger.clearTable_quiet s table) (replacing_tellsOf _ s _ _)
  | assignPrimaryKey s id key =>
    exact mutate_quiet e _ (e.ledger.assignPrimaryKey_quiet s id key)
      (assignPrimaryKey_tellsOf e.ledger s id key)
  | look s => exact .quiet ⟨rfl, rfl, rfl⟩ (e.ledger.visit_loaded s).quiet
  | generate s dialect scope => exact .quiet ⟨rfl, rfl, rfl⟩ (e.ledger.visit_loaded s).quiet
  | setKeyColumns table columns =>
    exact .quiet ⟨rfl, rfl, rfl⟩ (Ledger.Trims.keyColumns table columns).quiet
  | detectKeys handle table => exact detectKeys_turn e handle table
  | subscribe only reaction => exact .quiet ⟨rfl, rfl, rfl⟩ still
  | unsubscribe listener => exact .quiet ⟨rfl, rfl, rfl⟩ still
  | startApply request script id => exact startApply_turn e request script id
  | finishApply id => exact finishApply_turn e id
  | abandonApply id => exact abandonApply_turn e id
  | reportColumns table columns => exact .quiet ⟨rfl, rfl, rfl⟩ still
  | failNext error => exact .quiet ⟨rfl, rfl, rfl⟩ still
  | storage refusal => exact .storage refusal
  | reopen => exact .reopen

/-- An engine that has just been opened has the ledger of the store, and nothing is going on. -/
theorem opened_eq {settings : Settings} {store : Store} {database : Database}
    (opened : Engine.opened settings store database = .ok e) :
    e = ⟨settings, Ledger.onStore store settings.storagePrefix, Audience.empty, database,
      Dict.empty, []⟩ := by
  unfold Engine.opened at opened
  cases checked : settings.check with
  | error _ => rw [checked] at opened; cases opened
  | ok _ =>
    rw [checked] at opened
    cases opened
    rfl

/-! ### What stays -/

theorem hearing_audience {ε α : Type} {e : Engine} (step : Ledger.Step ε α)
    (unheard : e.audience.listeners = []) : (e.hearing step).audience = e.audience := by
  unfold hearing
  cases step.event with
  | none => rfl
  | some event => simp [Audience.announce, unheard]

theorem startApply_audience (e : Engine) (request : Apply.Request) (script : Script)
    (id : ApplyId) : (e.startApply request script id).2.audience = e.audience := by
  unfold startApply
  simp only
  split
  · rfl
  split
  · rfl
  rcases claim_cases e request.session id with ⟨-, eq⟩ | ⟨-, e', eq, -, -, -, -, audience⟩
  · simp only [eq]
  · have back (phase : Apply.Phase) :
        (e'.release request.session id phase).audience = e.audience :=
      (e'.release_spec request.session id phase).2.2.2.2.trans audience
    simp only [eq]
    split
    · exact back _
    split
    · exact back _
    split
    · exact back _
    · exact audience

theorem settle_audience (e : Engine) (call : Apply.Call) (unheard : e.audience.listeners = []) :
    (e.settle call).2.audience = e.audience := by
  unfold settle
  simp only [Database.settle]
  split
  · exact (release_spec _ _ _ _).2.2.2.2
  · let e₁ : Engine := { e.withoutCall call.id with database := { e.database with failure := none } }
    let step := e.ledger.clearApplied call.session call.script.changeIds
    have released := (release_spec (e₁.hearing step) call.session call.id .succeeded).2.2.2.2
    have same : (e₁.hearing step).audience = e.audience := hearing_audience step unheard
    exact released.trans same

theorem perform_unheard {e : Engine} (unheard : e.audience.listeners = []) {m : Move}
    (plain : ∀ only reaction, m ≠ .subscribe only reaction) :
    (e.perform m).audience.listeners = [] := by
  have heard {ε α : Type} (step : Ledger.Step ε α) : (e.hearing step).audience.listeners = [] := by
    rw [hearing_audience step unheard]
    exact unheard
  cases m with
  | activate s => exact heard _
  | deactivate s discard => exact heard _
  | record s edit id now => exact heard _
  | remove s id => exact heard _
  | clearAll s => exact heard _
  | clearTable s table => exact heard _
  | assignPrimaryKey s id key => exact heard _
  | look s => exact unheard
  | generate s dialect scope => exact unheard
  | setKeyColumns table columns => exact unheard
  | detectKeys handle table =>
    unfold perform detectKeys
    simp only
    split
    · exact unheard
    · split <;> exact unheard
  | subscribe only reaction => exact absurd rfl (plain only reaction)
  | unsubscribe listener => simp [perform, Audience.unsubscribe, unheard]
  | startApply request script id =>
    exact (congrArg Audience.listeners (startApply_audience e request script id)).trans unheard
  | finishApply id =>
    unfold perform finishApply
    simp only
    split
    · exact unheard
    next call _ =>
    exact (congrArg Audience.listeners (settle_audience e call unheard)).trans unheard
  | abandonApply id =>
    unfold perform abandonApply
    simp only
    split
    · exact unheard
    · rw [(release_spec _ _ _ _).2.2.2.2]
      exact unheard
  | reportColumns table columns => exact unheard
  | failNext error => exact unheard
  | storage refusal => exact unheard
  | reopen => rfl

theorem Turn.space {m : Move} (turn : e.Turn m e') (h : e.ledger.space = e.settings.storagePrefix) :
    e'.settings = e.settings ∧ e'.ledger.space = e.settings.storagePrefix := by
  cases turn with
  | quiet aside ledger => exact ⟨aside.settings, ledger.space.trans h⟩
  | staged aside loaded checked free active reading staged ledger unheard =>
    refine ⟨aside.settings, ?_⟩
    rw [ledger.space, Ledger.space_written, loaded.space, h]
  | sent sent =>
    refine ⟨sent.settings, ?_⟩
    rw [sent.ledger]
    exact (e.ledger.load_loaded _).space.trans h
  | dropped settings found ending ledger =>
    refine ⟨settings, ?_⟩
    rw [ledger, Ledger.space_unfreeze, h]
  | committed settings found success ledger =>
    refine ⟨settings, ?_⟩
    rw [ledger, Ledger.space_unfreeze, Ledger.clearApplied_ledger, Ledger.space_written,
      (e.ledger.load_loaded _).space, h]
  | storage refusal => exact ⟨rfl, h⟩
  | reopen => exact ⟨rfl, rfl⟩

end Engine

end DraftLedger
