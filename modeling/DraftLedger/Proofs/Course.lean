import DraftLedger.Proofs.Standing

/-!
# What a move does through its session

A move that is about a session goes through that session alone: it loads it, writes it with fewer
changes or with a key, holds it or gives it back, and forgets it when there is nothing to know about
it.  Only a recorded edit stages anything, and only once.

* `Engine.sessionOf?` : the session that a move is about.
* `Ledger.Handles` : what is done to the ledger through a session without staging anything.
* `Ledger.Course`, `Engine.perform_course` : what a move does, with the readings of the clock.
* `Engine.perform_elsewhere` : what the moves do that are about no session.
-/

set_option autoImplicit false

namespace DraftLedger

theorem Dict.erase_insert {κ ν : Type} [LinearKey κ] (d : Dict κ ν) (k : κ) (v : ν) :
    (d.insert k v).erase k = d.erase k := by
  refine ext_get? fun q => ?_
  simp only [get?_erase, get?_insert]
  split <;> rfl

/-- The session that a move is about, if it is about one. -/
def Engine.sessionOf? (e : Engine) : Engine.Move → Option SessionId
  | .activate s | .deactivate s _ | .record s _ _ _ | .remove s _ | .clearAll s | .clearTable s _ =>
    some s
  | .assignPrimaryKey s _ _ | .look s | .generate s _ _ => some s
  | .startApply request _ _ => some request.session
  | .finishApply id | .abandonApply id => (e.call? id).map Apply.Call.session
  | _ => none

namespace Ledger

variable {l l' l'' : Ledger} {m : Engine.Move} {s t : SessionId}

/-! ## Going through a session -/

/-- What a move may do to the ledger through a session without staging anything. -/
inductive Handles (m : Engine.Move) (s : SessionId) : Ledger → Ledger → Prop
  | refl (l : Ledger) : Handles m s l l
  | load (l : Ledger) : Handles m s l (l.load s)
  | thin {l : Ledger} {x y : Session} (present : l.sessions.get? s = some y)
      (frozen : x.frozen = y.frozen) (fewer : x.changes.Sublist y.changes) :
      Handles m s l (l.written s x)
  | assign {l : Ledger} {y : Session} {id : ChangeId} {key : Row} {changes : List Change}
      (assigns : m = .assignPrimaryKey s id key) (present : l.sessions.get? s = some y)
      (assigned : withAssignedKey y.changes id key = .ok changes) :
      Handles m s l (l.written s { y with changes })
  | mark {l : Ledger} {y : Session} (frozen : Bool) (present : l.sessions.get? s = some y) :
      Handles m s l (l.put s { y with frozen })
  | forget {l : Ledger} {y : Session} (present : l.sessions.get? s = some y)
      (vacant : y.isVacant = true) : Handles m s l { l with sessions := l.sessions.erase s }
  | trans {l l' l'' : Ledger} (h : Handles m s l l') (h' : Handles m s l' l'') : Handles m s l l''

theorem visit_handles (l : Ledger) (s : SessionId) : Handles m s l (l.visit s) := by
  unfold visit
  split
  · exact .refl l
  · exact .load l

theorem Thinned.handles (h : Thinned s l l') (mem : (l.sessions.get? s).isSome = true) :
    Handles m s l l' := by
  induction h with
  | refl => exact .refl l
  | @drop l' x thinned free free' fewer ih =>
    obtain ⟨y, present⟩ := Option.isSome_iff_exists.1 (thinned.mem mem)
    have same : l'.session s = y := by simp only [session, present]
    rw [changes, same] at fewer
    rw [same] at free
    exact ih.trans (.thin present (free'.trans free.symm) fewer)

theorem claim_handles (l : Ledger) (s : SessionId) :
    Handles m s l ((l.load s).put s { l.session s with frozen := true }) :=
  (Handles.load l).trans (.mark true (l.get?_load s))

theorem unfreeze_handles (l : Ledger) (s : SessionId) : Handles m s l (l.unfreeze s) := by
  unfold unfreeze
  cases present : l.sessions.get? s with
  | none => exact .refl l
  | some x =>
    have given : Handles m s l (l.put s { x with frozen := false }) := .mark false present
    simp only
    split
    · next vacant =>
      have forgotten := given.trans (.forget (by simp [put]) vacant)
      simp only [put, Dict.erase_insert] at forgotten
      exact forgotten
    · exact given

/-- A replacement that keeps the session held or free, with no change that it did not have. -/
theorem replacing_handles {α : Type} (l : Ledger) (s : SessionId)
    (replacement : Session → Except Error (Session × α)) (kind : α → EventKind)
    (fewer : ∀ x y a, replacement x = .ok (y, a) →
      y.frozen = x.frozen ∧ y.changes.Sublist x.changes) :
    Handles m s l (l.replacing s replacement kind).ledger := by
  rcases l.replacing_cases s replacement kind with ⟨e, eq⟩ | ⟨x, answer, free, replaced, eq⟩
  · rw [eq]
    exact .load l
  · obtain ⟨frozen, sub⟩ := fewer _ _ _ replaced
    rw [eq]
    exact (Handles.load l).trans (.thin (l.get?_load s) frozen sub)

theorem assignPrimaryKey_handles (l : Ledger) (s : SessionId) (id : ChangeId) (key : Row) :
    Handles (.assignPrimaryKey s id key) s l (l.assignPrimaryKey s id key).ledger := by
  unfold assignPrimaryKey
  split
  · exact .refl l
  rcases l.replacing_cases s (fun session => (withAssignedKey session.changes id key).map
    fun changes => ({ session with changes }, ())) (fun _ => .keyAssigned id) with
    ⟨e, eq⟩ | ⟨x, answer, free, replaced, eq⟩
  · rw [eq]
    exact .load l
  · rw [eq]
    cases assigned : withAssignedKey (l.session s).changes id key with
    | error e => rw [assigned] at replaced; cases replaced
    | ok changes =>
      rw [assigned] at replaced
      cases replaced
      exact (Handles.load l).trans (.assign rfl (l.get?_load s) assigned)

theorem clearApplied_handles (l : Ledger) (s : SessionId) (ids : List ChangeId) :
    Handles m s l (l.clearApplied s ids).ledger := by
  rw [clearApplied_ledger]
  exact (Handles.load l).trans (.thin (l.get?_load s) rfl List.filter_sublist)

/-! ## Recording -/

/-- Recording either stages a change at the next reading of the clock and writes it, or fails: at once,
after the session was loaded, or after the clock was read. -/
theorem record_exact (l : Ledger) (s : SessionId) (edit : Edit) (id : ChangeId) (now : UInt64) :
    (∃ failure l', l.record s edit id now = l'.refused failure ∧
      (l' = l ∨ l' = l.load s ∨ ∃ stamp, (l.load s).clock.next? now = some stamp ∧
        l' = { l.load s with clock := ⟨stamp⟩ })) ∨
      ∃ stamp changes outcome, edit.check = .ok () ∧ (l.session s).frozen = false ∧
        (l.session s).active = true ∧ (l.load s).clock.next? now = some stamp ∧
        stage (l.changes s) ((edit.withRegisteredKey l.keyColumns).toChange id stamp) =
          .ok (changes, outcome) ∧
        l.record s edit id now =
          ⟨.ok outcome, { l.load s with clock := ⟨stamp⟩ }.written s { l.session s with changes },
            some ⟨s, .recorded outcome⟩⟩ := by
  have loaded := l.load_loaded s
  cases checked : edit.check with
  | error e => exact .inl ⟨.refused e, l, by simp only [record, checked], .inl rfl⟩
  | ok _ =>
  cases frozen : (l.session s).frozen with
  | true =>
    refine .inl ⟨.refused (.applyInProgress s), l.load s, ?_, .inr (.inl rfl)⟩
    simp only [record, checked, loaded.session, frozen, if_true]
  | false =>
  cases active : (l.session s).active with
  | false =>
    refine .inl ⟨.refused (.sessionInactive s), l.load s, ?_, .inr (.inl rfl)⟩
    simp only [record, checked, loaded.session, frozen, active, Bool.false_eq_true, if_false]
  | true =>
  cases reading : (l.load s).clock.next? now with
  | none =>
    exact .inl ⟨.overrun, l.load s, record_overrun id checked frozen active reading, .inr (.inl rfl)⟩
  | some stamp =>
  cases staged : stage (l.changes s) ((edit.withRegisteredKey l.keyColumns).toChange id stamp) with
  | ok r =>
    exact .inr ⟨stamp, r.1, r.2, rfl, rfl, rfl, rfl, staged,
      record_of_stage checked frozen active reading staged⟩
  | error e =>
    exact .inl ⟨.refused e, _, record_of_refusal checked frozen active reading staged,
      .inr (.inr ⟨stamp, rfl, rfl⟩)⟩

/-- What a move does to the ledger through a session: nothing is staged, or an edit is refused or
staged at the next reading of the clock. -/
inductive Course (m : Engine.Move) (s : SessionId) (l : Ledger) : Ledger → Prop
  | still {l' : Ledger} (h : Handles m s l l') : Course m s l l'
  | ticked {edit : Edit} {id : ChangeId} {now : UInt64} {stamp : Stamp}
      (records : m = .record s edit id now) (reading : (l.load s).clock.next? now = some stamp) :
      Course m s l { l.load s with clock := ⟨stamp⟩ }
  | staged {edit : Edit} {id : ChangeId} {now : UInt64} {stamp : Stamp} {changes : List Change}
      {outcome : Outcome} {l' : Ledger} (records : m = .record s edit id now)
      (reading : (l.load s).clock.next? now = some stamp)
      (staged : stage (l.changes s) ((edit.withRegisteredKey l.keyColumns).toChange id stamp) =
        .ok (changes, outcome))
      (rest : Handles m s ({ l.load s with clock := ⟨stamp⟩ }.written s { l.session s with changes })
        l') : Course m s l l'

/-- What is done through a session leaves the key columns, and which other sessions are in memory. -/
theorem Handles.others (h : Handles m s l l') :
    l'.keyColumns = l.keyColumns ∧ ∀ t, t ≠ s → l'.sessions.get? t = l.sessions.get? t := by
  induction h with
  | refl => exact ⟨rfl, fun _ _ => rfl⟩
  | load l => exact ⟨(l.load_loaded s).keyColumns, fun t other => l.get?_load_of_ne other⟩
  | thin | assign =>
    exact ⟨keyColumns_written _, fun t other => by rw [get?_sessions_written, if_neg other]⟩
  | mark => exact ⟨rfl, fun t other => by simp only [put, Dict.get?_insert, if_neg other]⟩
  | forget => exact ⟨rfl, fun t other => by simp only [Dict.get?_erase, if_neg other]⟩
  | trans _ _ ih ih' =>
    exact ⟨ih'.1.trans ih.1, fun t other => (ih'.2 t other).trans (ih.2 t other)⟩

theorem Course.others (h : Course m s l l') :
    l'.keyColumns = l.keyColumns ∧ ∀ t, t ≠ s → l'.sessions.get? t = l.sessions.get? t := by
  have loaded := (Handles.load (m := m) (s := s) l).others
  cases h with
  | still h => exact h.others
  | ticked => exact loaded
  | staged _ _ _ rest =>
    refine ⟨rest.others.1.trans ((keyColumns_written _).trans loaded.1), fun t other => ?_⟩
    rw [rest.others.2 t other, get?_sessions_written, if_neg other]
    exact loaded.2 t other

end Ledger

namespace Engine

variable {m : Move} {s : SessionId}

theorem hearing_handles {ε α : Type} (e : Engine) {step : Ledger.Step ε α} (tells : TellsOf step s) :
    Ledger.Handles m s step.ledger (e.hearing step).ledger := by
  unfold hearing
  cases told : step.event with
  | none => exact .refl _
  | some event =>
    obtain ⟨rfl, mem⟩ := tells event told
    exact (Audience.announce_thinned event (step.ledger, e.audience) mem).handles mem

theorem replacing_course {α : Type} (e : Engine) (s : SessionId)
    (replacement : Session → Except Error (Session × α)) (kind : α → EventKind)
    (fewer : ∀ x y a, replacement x = .ok (y, a) →
      y.frozen = x.frozen ∧ y.changes.Sublist x.changes) :
    Ledger.Course m s e.ledger
      (e.mutate fun l => l.replacing s replacement kind).2.ledger :=
  .still ((e.ledger.replacing_handles s replacement kind fewer).trans
    (e.hearing_handles (replacing_tellsOf e.ledger s replacement kind)))

theorem record_course (e : Engine) (s : SessionId) (edit : Edit) (id : ChangeId) (now : UInt64) :
    Ledger.Course (.record s edit id now) s e.ledger (e.perform (.record s edit id now)).ledger := by
  have same : e.perform (.record s edit id now) = e.hearing (e.ledger.record s edit id now) := rfl
  rw [same]
  rcases e.ledger.record_exact s edit id now with
    ⟨failure, l', eq, cost⟩ | ⟨stamp, changes, outcome, -, -, -, reading, staged, eq⟩
  · rw [eq]
    have unheard : (e.hearing (l'.refused failure : Ledger.Step Ledger.Failure Outcome)).ledger = l' :=
      rfl
    rw [unheard]
    rcases cost with rfl | rfl | ⟨stamp, reading, rfl⟩
    · exact .still (.refl _)
    · exact .still (.load _)
    · exact .ticked rfl reading
  · have tells : TellsOf (e.ledger.record s edit id now) s := fun event told => by
      rw [eq] at told ⊢
      cases told
      exact ⟨rfl, by simp [Ledger.get?_sessions_written]⟩
    have heard := hearing_handles (m := .record s edit id now) e tells
    rw [eq] at heard ⊢
    exact .staged rfl reading staged heard

theorem startApply_handles (e : Engine) (request : Apply.Request) (script : Script) (id : ApplyId) :
    Ledger.Handles m request.session e.ledger (e.startApply request script id).2.ledger := by
  have claimed := e.ledger.claim_handles (m := m) request.session
  have start := e.startApply_cases request script id
  generalize e.startApply request script id = result at start
  cases start with
  | busy applying => exact .refl _
  | asked idle => exact .refl _
  | refused idle frozen => exact .load _
  | ended idle free answer checked =>
    rw [(release_spec _ _ _ _).2.1]
    exact claimed.trans (Ledger.unfreeze_handles _ _)
  | waiting idle free => exact claimed

theorem settle_handles (e : Engine) (call : Apply.Call) :
    Ledger.Handles m call.session e.ledger (e.settle call).2.ledger := by
  cases ending : e.database.failure with
  | some error =>
    rw [(e.settle_failed call ending).2.2.1]
    exact e.ledger.unfreeze_handles _
  | none =>
    rw [(e.settle_committed call ending).2.2.1]
    exact (e.ledger.clearApplied_handles _ _).trans (Ledger.unfreeze_handles _ _)

/-- What a move does to the ledger it does through its session. -/
theorem perform_course (e : Engine) (about : e.sessionOf? m = some s) :
    Ledger.Course m s e.ledger (e.perform m).ledger := by
  cases m with
  | activate =>
    cases about
    exact e.replacing_course s _ _ fun x y a h => by
      cases h
      exact ⟨rfl, .refl _⟩
  | deactivate _ discard =>
    cases about
    exact e.replacing_course s _ _ fun x y a h => by
      cases h
      cases discard
      · exact ⟨rfl, .refl _⟩
      · exact ⟨rfl, List.nil_sublist _⟩
  | record _ edit id now =>
    cases about
    exact e.record_course s edit id now
  | remove _ id =>
    cases about
    exact e.replacing_course s _ _ fun x y a h => by
      split at h
      · cases h
      · next before found after located =>
        obtain ⟨eq, -⟩ := Ledger.locate?_eq_some located
        cases h
        exact ⟨rfl, eq ▸ (List.sublist_cons_self _ _).append_left _⟩
  | clearAll =>
    cases about
    exact e.replacing_course s _ _ fun x y a h => by
      cases h
      exact ⟨rfl, List.filter_sublist⟩
  | clearTable _ table =>
    cases about
    exact e.replacing_course s _ _ fun x y a h => by
      cases h
      exact ⟨rfl, List.filter_sublist⟩
  | assignPrimaryKey _ id key =>
    cases about
    exact .still ((e.ledger.assignPrimaryKey_handles s id key).trans
      (e.hearing_handles (assignPrimaryKey_tellsOf e.ledger s id key)))
  | look =>
    cases about
    exact .still (e.ledger.visit_handles s)
  | generate =>
    cases about
    exact .still (e.ledger.visit_handles s)
  | startApply request script id =>
    cases about
    exact .still (e.startApply_handles request script id)
  | finishApply id =>
    obtain ⟨call, found, rfl⟩ := Option.map_eq_some_iff.1 about
    have same : e.perform (.finishApply id) = (e.settle call).2 := by
      simp only [perform, finishApply, found]
    rw [same]
    exact .still (e.settle_handles call)
  | abandonApply id =>
    obtain ⟨call, found, rfl⟩ := Option.map_eq_some_iff.1 about
    have same : e.perform (.abandonApply id) =
        (e.withoutCall id).release call.session id .idle := by
      simp only [perform, abandonApply, found]
    rw [same, (release_spec _ _ _ _).2.1]
    exact .still (Ledger.unfreeze_handles _ _)
  | _ => cases about

/-- A move that is about no session leaves the ledger as it is, unless it registers key columns, is
the store's or opens the engine again. -/
theorem perform_elsewhere (e : Engine) (about : e.sessionOf? m = none) :
    (∃ keyColumns, (e.perform m).ledger = { e.ledger with keyColumns }) ∨
      (∃ refusal, m = .storage refusal) ∨ m = .reopen := by
  have still : ∃ keyColumns, e.ledger = { e.ledger with keyColumns } := ⟨e.ledger.keyColumns, rfl⟩
  cases m with
  | setKeyColumns table columns => exact .inl ⟨_, rfl⟩
  | detectKeys handle table =>
    refine .inl ?_
    simp only [perform, detectKeys]
    split
    · exact still
    · split
      · exact still
      · exact ⟨_, rfl⟩
  | subscribe only reaction => exact .inl still
  | unsubscribe listener => exact .inl still
  | reportColumns table columns => exact .inl still
  | failNext error => exact .inl still
  | finishApply id =>
    have found : e.call? id = none := Option.map_eq_none_iff.1 about
    simp only [perform, finishApply, found]
    exact .inl still
  | abandonApply id =>
    have found : e.call? id = none := Option.map_eq_none_iff.1 about
    simp only [perform, abandonApply, found]
    exact .inl still
  | storage refusal => exact .inr (.inl ⟨refusal, rfl⟩)
  | reopen => exact .inr (.inr rfl)
  | _ => cases about

end Engine

end DraftLedger
