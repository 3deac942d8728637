import DraftLedger.Proofs.Merging

/-!
# The ledger as its sessions

A ledger is looked at through `Ledger.session`: what every session is, wherever it is kept.  Loading
a session moves it without changing it, and writing one changes that session alone.

* `Ledger.Loaded` : the same sessions, more of them in memory.
* `Ledger.session_written` : what writing one session does to all sessions.
* `Ledger.replacing_cases`, `Ledger.record_cases` : a mutation leaves all sessions as they are, or
  writes one.
-/

set_option autoImplicit false

namespace DraftLedger

theorem mapError_eq_ok_iff {ε δ α : Type} {f : ε → δ} {result : Except ε α} {a : α} :
    result.mapError f = .ok a ↔ result = .ok a := by
  cases result with
  | error e =>
    change Except.error (f e) = .ok a ↔ Except.error e = .ok a
    simp
  | ok b =>
    change Except.ok b = .ok a ↔ Except.ok b = .ok a
    simp

/-! ## Keys of documents -/

theorem Document.key_inj {space : String} {s t : SessionId}
    (h : Document.key space s = Document.key space t) : s = t := by
  obtain ⟨a⟩ := s
  obtain ⟨b⟩ := t
  exact congrArg SessionId.mk (String.append_right_inj (Document.keyPrefix space) |>.1 h)

namespace Ledger

variable {l l' l'' : Ledger} {s t : SessionId}

/-! ## Loading -/

/-- The second ledger is the first one with more sessions in memory and another clock. -/
structure Loaded (l l' : Ledger) : Prop where
  space : l'.space = l.space
  store : l'.store = l.store
  keyColumns : l'.keyColumns = l.keyColumns
  sessions : ∀ t, l'.sessions.get? t = l.sessions.get? t ∨
    (l.sessions.get? t = none ∧ l'.sessions.get? t = some (l.recovered t))

theorem recovered_congr (space : l'.space = l.space) (store : l'.store = l.store)
    (t : SessionId) : l'.recovered t = l.recovered t := by
  simp only [recovered, space, store]

namespace Loaded

theorem refl (l : Ledger) : l.Loaded l := ⟨rfl, rfl, rfl, fun _ => .inl rfl⟩

theorem recovered (h : l.Loaded l') (t : SessionId) : l'.recovered t = l.recovered t :=
  recovered_congr h.space h.store t

/-- Loading changes no session. -/
theorem session (h : l.Loaded l') (t : SessionId) : l'.session t = l.session t := by
  unfold Ledger.session
  rcases h.sessions t with same | ⟨absent, present⟩
  · rw [same, h.recovered]
  · rw [absent, present]

theorem changes (h : l.Loaded l') (t : SessionId) : l'.changes t = l.changes t :=
  congrArg Session.changes (h.session t)

theorem trans (h : l.Loaded l') (h' : l'.Loaded l'') : l.Loaded l'' where
  space := h'.space.trans h.space
  store := h'.store.trans h.store
  keyColumns := h'.keyColumns.trans h.keyColumns
  sessions t := by
    rcases h'.sessions t with same' | ⟨absent', present'⟩
    · rw [same']
      exact h.sessions t
    · rcases h.sessions t with same | ⟨-, present⟩
      · exact .inr ⟨same ▸ absent', by rw [present', h.recovered]⟩
      · rw [present] at absent'
        cases absent'

end Loaded

theorem load_loaded (l : Ledger) (s : SessionId) : l.Loaded (l.load s) := by
  unfold load
  cases absent : l.sessions.get? s with
  | some _ => exact .refl l
  | none =>
    refine ⟨rfl, rfl, rfl, fun t => ?_⟩
    by_cases same : t = s
    · exact .inr ⟨same ▸ absent, by simp [same]⟩
    · exact .inl (Dict.get?_insert_of_ne _ _ same)

theorem visit_loaded (l : Ledger) (s : SessionId) : l.Loaded (l.visit s) := by
  unfold visit
  split
  · exact .refl l
  · exact l.load_loaded s

theorem withClock_loaded (l : Ledger) (clock : Clock) : l.Loaded { l with clock } :=
  ⟨rfl, rfl, rfl, fun _ => .inl rfl⟩

theorem get?_load (l : Ledger) (s : SessionId) :
    (l.load s).sessions.get? s = some (l.session s) := by
  unfold load Ledger.session
  cases found : l.sessions.get? s with
  | some session => simpa using found
  | none => simp

theorem get?_load_of_ne (l : Ledger) (other : t ≠ s) :
    (l.load s).sessions.get? t = l.sessions.get? t := by
  unfold load
  split
  · rfl
  · exact Dict.get?_insert_of_ne _ _ other

theorem changes_of_present {x : Session} (present : l.sessions.get? s = some x) :
    l.changes s = x.changes := by
  rw [changes, session, present]

/-! ## Writing -/

theorem session_put (x : Session) (t : SessionId) :
    (l.put s x).session t = if t = s then x else l.session t := by
  unfold Ledger.session put
  by_cases same : t = s
  · simp [same]
  · simp only [if_neg same, Dict.get?_insert_of_ne _ _ same]
    rfl

/-- Writing to the store changes the store alone, and there the document of one session alone. -/
theorem persist_eq (l : Ledger) (s : SessionId) :
    ∃ store, l.persist s = { l with store } ∧ store.refusal = l.store.refusal ∧
      store.listing = l.store.listing ∧
      ∀ k, k ≠ Document.key l.space s → store.entries.get? k = l.store.entries.get? k := by
  cases saved : Document.save l.store l.space
      (Document.current s (l.session s).active (l.session s).changes) with
  | error e => exact ⟨l.store, by simp only [persist, saved], rfl, rfl, fun _ _ => rfl⟩
  | ok store =>
    refine ⟨store, by simp only [persist, saved], ?_⟩
    unfold Document.save at saved
    split at saved
    · simp only [Store.remove, Store.answering] at saved
      split at saved
      · cases saved
        exact ⟨rfl, rfl, fun k ne => by simp [Dict.get?_erase, ne, Document.current]⟩
      · cases saved
    · simp only [Store.set, Store.answering] at saved
      split at saved
      · cases saved
        exact ⟨rfl, rfl, fun k ne => Dict.get?_insert_of_ne _ _ ne⟩
      · cases saved

/-- The ledger after a session has been replaced and written back. -/
def written (l : Ledger) (s : SessionId) (session : Session) : Ledger :=
  (l.put s session).persist s

@[simp] theorem space_written (x : Session) : (l.written s x).space = l.space := by
  obtain ⟨store, eq, -⟩ := persist_eq (l.put s x) s
  rw [written, eq]
  rfl

@[simp] theorem keyColumns_written (x : Session) : (l.written s x).keyColumns = l.keyColumns := by
  obtain ⟨store, eq, -⟩ := persist_eq (l.put s x) s
  rw [written, eq]
  rfl

@[simp] theorem refusal_written (x : Session) :
    (l.written s x).store.refusal = l.store.refusal := by
  obtain ⟨store, eq, refusal, -⟩ := persist_eq (l.put s x) s
  rw [written, eq]
  exact refusal

theorem get?_sessions_written (x : Session) (t : SessionId) :
    (l.written s x).sessions.get? t = if t = s then some x else l.sessions.get? t := by
  obtain ⟨store, eq, -⟩ := persist_eq (l.put s x) s
  rw [written, eq]
  exact Dict.get?_insert _ _ _ _

theorem recovered_written_of_ne (x : Session) (other : t ≠ s) :
    (l.written s x).recovered t = l.recovered t := by
  obtain ⟨store, eq, refusal, -, others⟩ := persist_eq (l.put s x) s
  have elsewhere : Document.key l.space t ≠ Document.key l.space s :=
    fun same => other (Document.key_inj same)
  have entry : store.entries.get? (Document.key l.space t) =
      l.store.entries.get? (Document.key l.space t) := others _ elsewhere
  have refusal : store.refusal = l.store.refusal := refusal
  rw [written, eq]
  simp only [recovered, Document.load, Store.get, Store.answering, put, entry, refusal]

/-- Writing one session changes that session alone. -/
theorem session_written (x : Session) (t : SessionId) :
    (l.written s x).session t = if t = s then x else l.session t := by
  unfold Ledger.session
  rw [get?_sessions_written]
  by_cases same : t = s
  · simp [same]
  · rw [if_neg same, if_neg same, recovered_written_of_ne x same]

/-! ## What comes of a mutation -/

/-- The mutation is refused or fails: nothing is told, and the sessions stay. -/
structure Step.Idle {ε α : Type} (step : Step ε α) (l : Ledger) : Prop where
  answer : ∃ e, step.answer = .error e
  event : step.event = none
  ledger : l.Loaded step.ledger

/-- A replacement writes the new session or leaves everything as it is. -/
theorem replacing_cases {α : Type} (l : Ledger) (s : SessionId)
    (replacement : Session → Except Error (Session × α)) (kind : α → EventKind) :
    (∃ e, l.replacing s replacement kind = (l.load s).refused e) ∨
    ∃ x answer, (l.session s).frozen = false ∧ replacement (l.session s) = .ok (x, answer) ∧
      l.replacing s replacement kind =
        ⟨.ok answer, (l.load s).written s x, some ⟨s, kind answer⟩⟩ := by
  unfold replacing
  simp only [(l.load_loaded s).session s]
  split
  · exact .inl ⟨_, rfl⟩
  next free =>
  split
  · exact .inl ⟨_, rfl⟩
  · next x answer found => exact .inr ⟨x, answer, by simpa using free, found, rfl⟩

/-- Recording stages a change in the session at the next reading of the clock and writes it, or leaves
everything as it is. -/
theorem record_cases (l : Ledger) (s : SessionId) (edit : Edit) (id : ChangeId) (now : UInt64) :
    (l.record s edit id now).Idle l ∨
    ∃ stamp changes outcome, edit.check = .ok () ∧ (l.session s).frozen = false ∧
      (l.session s).active = true ∧ (l.load s).clock.next? now = some stamp ∧
      stage (l.changes s) ((edit.withRegisteredKey l.keyColumns).toChange id stamp) =
        .ok (changes, outcome) ∧
      l.record s edit id now =
        ⟨.ok outcome, { l.load s with clock := ⟨stamp⟩ }.written s { l.session s with changes },
          some ⟨s, .recorded outcome⟩⟩ := by
  have loaded := l.load_loaded s
  unfold record Clock.tick?
  cases checked : edit.check with
  | error e => exact .inl ⟨⟨_, rfl⟩, rfl, .refl l⟩
  | ok _ =>
    simp only [loaded.session s]
    split
    · exact .inl ⟨⟨_, rfl⟩, rfl, loaded⟩
    next free =>
    split
    · next active =>
      cases reading : (l.load s).clock.next? now with
      | none => exact .inl ⟨⟨_, rfl⟩, rfl, loaded⟩
      | some stamp =>
        simp only [Option.map_some]
        split
        · exact .inl ⟨⟨_, rfl⟩, rfl, loaded.trans (withClock_loaded _ _)⟩
        · next changes outcome staged =>
          rw [loaded.keyColumns] at staged
          exact .inr ⟨stamp, changes, outcome, trivial, by simpa using free, active, rfl, staged, rfl⟩
    · exact .inl ⟨⟨_, rfl⟩, rfl, loaded⟩

section Accepted

variable {edit : Edit} {id : ChangeId} {now : UInt64} {stamp : Stamp}

theorem record_of_stage {changes : List Change} {outcome : Outcome} (checked : edit.check = .ok ())
    (free : (l.session s).frozen = false) (active : (l.session s).active = true)
    (reading : (l.load s).clock.next? now = some stamp)
    (staged : stage (l.changes s) ((edit.withRegisteredKey l.keyColumns).toChange id stamp) =
      .ok (changes, outcome)) :
    l.record s edit id now =
      ⟨.ok outcome, { l.load s with clock := ⟨stamp⟩ }.written s { l.session s with changes },
        some ⟨s, .recorded outcome⟩⟩ := by
  have loaded := l.load_loaded s
  rw [Ledger.changes, ← loaded.keyColumns] at staged
  simp only [record, checked, loaded.session s, free, active, Clock.tick?, reading, Option.map_some,
    staged]
  rfl

theorem record_of_refusal {refusal : Error} (checked : edit.check = .ok ())
    (free : (l.session s).frozen = false) (active : (l.session s).active = true)
    (reading : (l.load s).clock.next? now = some stamp)
    (staged : stage (l.changes s) ((edit.withRegisteredKey l.keyColumns).toChange id stamp) =
      .error refusal) :
    l.record s edit id now =
      { l.load s with clock := ⟨stamp⟩ }.refused (.refused refusal) := by
  have loaded := l.load_loaded s
  rw [Ledger.changes, ← loaded.keyColumns] at staged
  simp only [record, checked, loaded.session s, free, active, Clock.tick?, reading, Option.map_some,
    staged]
  rfl

theorem record_overrun (id : ChangeId) (checked : edit.check = .ok ())
    (free : (l.session s).frozen = false) (active : (l.session s).active = true)
    (spent : (l.load s).clock.next? now = none) :
    l.record s edit id now = (l.load s).refused .overrun := by
  have loaded := l.load_loaded s
  simp only [record, checked, loaded.session s, free, active, Clock.tick?, spent, Option.map_none]
  rfl

theorem record_staged {result : Except Error (List Change × Outcome)} (checked : edit.check = .ok ())
    (free : (l.session s).frozen = false) (active : (l.session s).active = true)
    (reading : (l.load s).clock.next? now = some stamp)
    (staged : stage (l.changes s) ((edit.withRegisteredKey l.keyColumns).toChange id stamp) = result) :
    (l.record s edit id now).answer = (result.map Prod.snd).mapError .refused ∧
      (l.record s edit id now).ledger.changes s = (result.map Prod.fst).toOption.getD (l.changes s) := by
  cases result with
  | ok r =>
    rw [record_of_stage checked free active reading staged]
    refine ⟨rfl, ?_⟩
    rw [changes, session_written, if_pos rfl]
    rfl
  | error refusal =>
    rw [record_of_refusal checked free active reading staged]
    exact ⟨rfl, ((l.load_loaded s).trans (withClock_loaded _ _)).changes s⟩

end Accepted

/-- The changes that a transaction has committed are taken out of their session. -/
theorem clearApplied_ledger (l : Ledger) (s : SessionId) (ids : List ChangeId) :
    (l.clearApplied s ids).ledger = (l.load s).written s { l.session s with
      changes := (l.changes s).filter fun c => !ids.contains c.id } := by
  simp only [clearApplied, succeeded, keeping, (l.load_loaded s).session s]
  rfl

end Ledger

end DraftLedger
