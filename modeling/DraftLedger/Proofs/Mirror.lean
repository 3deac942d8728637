import DraftLedger.Proofs.ApplyGate
import DraftLedger.Proofs.Listing
import DraftLedger.Proofs.ReadBack

/-!
# The store mirrors the ledger

While the store takes every write, it has after every move the text of every session as it is, and
nothing of a session of which there is nothing to know.

* `Ledger.Rests` : nothing that is known of a session changes.
* `Ledger.Tracks`, `Engine.Turn.tracked` : what writing a session brings about lasts through all moves.
* `Session.raw?`, `Ledger.Mirrors` : what the store has of a session.
* `Ledger.ReadsBack`, `Ledger.recovered_of_mirrors` : what another ledger on the same store takes a
  session for.
* `History.store_mirrors` : another ledger on the same store reads the same sessions, and the sessions
  with something to know are listed, unless a query has to look for a text with a NUL character.
-/

set_option autoImplicit false

namespace DraftLedger

/-- The text that is worth keeping of a session. -/
def Session.raw? (s : SessionId) (x : Session) : Option String :=
  if !x.active && x.changes.isEmpty then none
  else some (Document.current s x.active x.changes).render

theorem Session.raw?_congr {x y : Session} (active : x.active = y.active)
    (changes : x.changes = y.changes) (s : SessionId) : x.raw? s = y.raw? s := by
  simp only [raw?, active, changes]

theorem Session.raw?_isSome (s : SessionId) (x : Session) :
    (x.raw? s).isSome = true ↔ x.active = true ∨ x.changes ≠ [] := by
  unfold raw?
  cases x.active <;> cases x.changes <;> simp

theorem Session.raw?_eq_none {s : SessionId} {x : Session} :
    x.raw? s = none ↔ x.active = false ∧ x.changes = [] := by
  unfold raw?
  cases x.active <;> cases x.changes <;> simp

namespace Ledger

variable {k : Listing} {l l' : Ledger} {s t : SessionId}

/-! ## What lasts -/

/-- The session may be held or given back, but what is known of it stays, in memory and in the
store. -/
structure Rests (s : SessionId) (l l' : Ledger) : Prop where
  active : l'.isActive s = l.isActive s
  changes : l'.changes s = l.changes s
  entry : l'.raw? s = l.raw? s
  kept : l'.kept? s = l.kept? s

theorem Rests.trans {l'' : Ledger} (h : Rests s l l') (h' : Rests s l' l'') : Rests s l l'' :=
  ⟨h'.active.trans h.active, h'.changes.trans h.changes, h'.entry.trans h.entry,
    h'.kept.trans h.kept⟩

theorem Keeps.rests (h : Keeps s l l') : Rests s l l' :=
  ⟨congrArg Session.active h.session, congrArg Session.changes h.session, h.entry, h.kept⟩

theorem rests_put {x : Session} (active : x.active = l.isActive s) (changes : x.changes = l.changes s)
    (t : SessionId) : Rests t l (l.put s x) := by
  by_cases same : t = s
  · subst same
    have session : (l.put t x).session t = x := by rw [session_put, if_pos rfl]
    exact ⟨by rw [isActive, session, active], by rw [Ledger.changes, session, changes], rfl, rfl⟩
  · exact (keeps_put x same).rests

/-- A property of a session and of what the store has of it, which writing the session brings about.
-/
structure Tracks (P : Ledger → SessionId → Prop) : Prop where
  rests : ∀ {l l' s}, Rests s l l' → P l s → P l' s
  written : ∀ {l : Ledger} {s : SessionId} (x : Session), l.store.refusal = none →
    P (l.written s x) s
  forgets : ∀ {l l' s}, l.store.refusal = none → Forgets s l l' → P l s → P l' s

/-- The store answers, and all sessions have the property. -/
structure Tracked (P : Ledger → SessionId → Prop) (k : Listing) (l : Ledger) : Prop where
  answers : l.store.refusal = none
  listing : l.store.listing = k
  each : ∀ s, P l s

theorem listing_written (x : Session) : (l.written s x).store.listing = l.store.listing := by
  obtain ⟨store, eq, -, listing, -⟩ := persist_eq (l.put s x) s
  rw [written, eq]
  exact listing

namespace Tracked

variable {P : Ledger → SessionId → Prop} (tracks : Tracks P)

include tracks

theorem loaded (h : Tracked P k l) (loaded : l.Loaded l') : Tracked P k l' where
  answers := loaded.store ▸ h.answers
  listing := loaded.store ▸ h.listing
  each s := tracks.rests (loaded.keeps s).rests (h.each s)

theorem written (h : Tracked P k l) (x : Session) : Tracked P k (l.written s x) where
  answers := (refusal_written x).trans h.answers
  listing := (listing_written x).trans h.listing
  each t := by
    by_cases same : t = s
    · subst same
      exact tracks.written x h.answers
    · exact tracks.rests (keeps_written x same).rests (h.each t)

theorem put (h : Tracked P k l) {x : Session} (active : x.active = l.isActive s)
    (changes : x.changes = l.changes s) : Tracked P k (l.put s x) where
  answers := h.answers
  listing := h.listing
  each t := tracks.rests (rests_put active changes t) (h.each t)

theorem thinned (h : Tracked P k l) (thinned : Thinned s l l') : Tracked P k l' := by
  induction thinned with
  | refl => exact h
  | drop x _ _ _ _ ih => exact ih.written tracks x

theorem forgets (h : Tracked P k l) (forgets : Forgets s l l') : Tracked P k l' where
  answers := forgets.store ▸ h.answers
  listing := forgets.store ▸ h.listing
  each t := by
    by_cases same : t = s
    · subst same
      exact tracks.forgets h.answers forgets (h.each t)
    · exact tracks.rests (forgets.keeps same).rests (h.each t)

theorem trims (h : Tracked P k l) (trims : Trims l l') : Tracked P k l' := by
  induction trims with
  | refl => exact h
  | thinned thinned => exact h.thinned tracks thinned
  | keyed free nonempty assigned => exact h.written tracks _
  | forgets forgets => exact h.forgets tracks forgets
  | @keyColumns l table columns =>
    have rests (s : SessionId) : Rests s l (l.setKeyColumns table columns) := ⟨rfl, rfl, rfl, rfl⟩
    exact ⟨h.answers, h.listing, fun s => tracks.rests (rests s) (h.each s)⟩
  | trans _ _ ih ih' => exact ih' (ih h)

theorem quiet (h : Tracked P k l) (quiet : Quiet l l') : Tracked P k l' := by
  obtain ⟨l₁, loaded, trims⟩ := quiet
  exact (h.loaded tracks loaded).trims tracks trims

theorem unfreeze (h : Tracked P k l) (s : SessionId) : Tracked P k (l.unfreeze s) := by
  refine unfreeze_keeps h (fun x present => ?_) fun _ _ forgets still =>
    still.forgets tracks forgets
  have same : l.session s = x := by rw [session, present]
  exact h.put tracks (by rw [isActive, same]) (by rw [Ledger.changes, same])

end Tracked

end Ledger

/-- What writing a session brings about lasts through every move, if the store goes on answering. -/
theorem Engine.Turn.tracked {P : Ledger → SessionId → Prop} {k : Listing} {e e' : Engine} {m : Move}
    (tracks : Ledger.Tracks P) (turn : e.Turn m e') (h : e.ledger.Tracked P k)
    (storage : ∀ refusal, m = .storage refusal → refusal = none)
    (reopen : m = .reopen → e.reopened.ledger.Tracked P k) : e'.ledger.Tracked P k := by
  cases turn with
  | quiet aside ledger => exact h.quiet tracks ledger
  | staged aside loaded checked free active reading staged ledger unheard =>
    exact ((h.loaded tracks loaded).written tracks _).thinned tracks ledger
  | sent sent =>
    rw [sent.ledger]
    have loaded := e.ledger.load_loaded ‹Apply.Request›.session
    refine (h.loaded tracks loaded).put tracks ?_ ?_
    · rw [Ledger.isActive, loaded.session]
    · rw [loaded.changes]
      rfl
  | dropped settings found ending ledger =>
    rw [ledger]
    exact h.unfreeze tracks _
  | committed settings found success ledger =>
    rw [ledger, Ledger.clearApplied_ledger]
    exact ((h.loaded tracks (e.ledger.load_loaded _)).written tracks _).unfreeze tracks _
  | storage refusal =>
    have same : ({ e with ledger.store.refusal := refusal } : Engine) = e := by
      rw [storage refusal rfl, ← h.answers]
    rw [same]
    exact h
  | reopen => exact reopen rfl

namespace Ledger

variable {k : Listing} {l l' : Ledger} {s t : SessionId}

/-! ## The mirror -/

theorem raw?_written (x : Session) (answers : l.store.refusal = none) :
    (l.written s x).raw? s = x.raw? s := by
  have text := entry_written (l := l) (s := s) x
  rw [if_pos answers] at text
  rw [Ledger.raw?, space_written]
  exact text

theorem recovered_of_raw?_eq_none (none : l.raw? s = none) :
    l.recovered s = Session.vacant := by
  have kept : l.kept? s = Option.none := by
    unfold raw? at none
    simp only [kept?, none]
  rw [recovered_eq, kept]
  split <;> rfl

/-- The store has the text of the session as it is. -/
def Mirrors (l : Ledger) (s : SessionId) : Prop := l.raw? s = (l.session s).raw? s

theorem mirrors_tracks : Tracks Mirrors where
  rests {l l' s} rests h := by
    have text : (l'.session s).raw? s = (l.session s).raw? s :=
      Session.raw?_congr rests.active rests.changes s
    rw [Mirrors, rests.entry, text]
    exact h
  written {l s} x answers := by
    rw [Mirrors, raw?_written x answers, session_written, if_pos rfl]
  forgets {l l' s} _ forgets h := by
    obtain ⟨inactive, -, empty⟩ := forgets.nothing
    have none : l'.raw? s = Option.none := by
      rw [raw?_congr forgets.space forgets.store, h]
      exact Session.raw?_eq_none.2 ⟨inactive, empty⟩
    have recovered : l'.session s = Session.vacant := by
      rw [session, forgets.gone]
      exact recovered_of_raw?_eq_none none
    rw [Mirrors, none, recovered]
    rfl

/-! ## Reading back -/

/-- The documents of the sessions as they are, where there are any, can be read back. -/
def ReadsBack (l : Ledger) : Prop :=
  ∀ s raw, (l.session s).raw? s = some raw →
    Document.decode (Document.key l.space s) raw s =
      .ok (Document.current s (l.isActive s) (l.changes s))

/-- Another ledger on the store finds the session as it is, but free. -/
theorem recovered_of_mirrors (answers : l.store.refusal = none) (entry : l.Mirrors s)
    (back : l.ReadsBack) : l.recovered s = ⟨l.isActive s, false, l.changes s⟩ := by
  unfold Mirrors at entry
  cases kept : (l.session s).raw? s with
  | none =>
    rw [kept] at entry
    obtain ⟨inactive, empty⟩ := Session.raw?_eq_none.1 kept
    rw [recovered_of_raw?_eq_none entry, isActive, changes, inactive, empty]
    rfl
  | some raw =>
    rw [kept] at entry
    unfold raw? at entry
    have document : l.kept? s = some (Document.current s (l.isActive s) (l.changes s)) := by
      simp only [kept?, entry, back s raw kept]
      rfl
    rw [recovered_eq, if_pos answers, document]
    rfl

theorem Tracked.onStore (h : Tracked Mirrors k l) (back : l.ReadsBack) :
    Tracked Mirrors k (Ledger.onStore l.store l.space) where
  answers := h.answers
  listing := h.listing
  each s := by
    have entry : (Ledger.onStore l.store l.space).raw? s = l.raw? s := rfl
    have session : (Ledger.onStore l.store l.space).session s = l.recovered s := rfl
    rw [Mirrors, entry, session, recovered_of_mirrors h.answers (h.each s) back, h.each s]
    rfl

end Ledger

/-! ## Runs -/

namespace History

open Engine

variable {h : History} {m : Move}

/-- The store goes on answering, and is opened again only when its documents can be read back. -/
def Answering (h : History) : Move → Prop
  | .storage refusal => refusal = none
  | .reopen => h.engine.ledger.ReadsBack
  | _ => True

theorem tracked_onStore_empty (listing : Listing) (space : String) :
    (Ledger.onStore (Store.empty listing) space).Tracked Ledger.Mirrors listing where
  answers := rfl
  listing := rfl
  each s := by
    have none : (Ledger.onStore (Store.empty listing) space).raw? s = none := rfl
    have session : (Ledger.onStore (Store.empty listing) space).session s = Session.vacant :=
      Ledger.recovered_of_raw?_eq_none none
    rw [Ledger.Mirrors, none, session]
    rfl

theorem placed_reached {settings : Settings} {store : Store} {database : Database} {e : Engine}
    {issued : List ChangeId} {allowed : History → Move → Prop}
    (opened : Engine.opened settings store database = .ok e)
    (reaches : Reaches allowed (start e issued) h) :
    h.engine.settings = settings ∧ h.engine.ledger.space = settings.storagePrefix := by
  obtain rfl := opened_eq opened
  refine reaches.invariant (p := fun h => h.engine.settings = settings ∧
    h.engine.ledger.space = settings.storagePrefix) ⟨rfl, rfl⟩ ?_
  rintro h m ⟨known, space⟩ -
  obtain ⟨settings', placed⟩ := (h.engine.perform_turn m).space (by rw [known, space])
  exact ⟨settings'.trans known, placed.trans (by rw [known])⟩

theorem mirrors_reached {settings : Settings} {listing : Listing} {database : Database}
    {e : Engine} {issued : List ChangeId}
    (opened : Engine.opened settings (Store.empty listing) database = .ok e)
    (reaches : Reaches Answering (start e issued) h) :
    h.engine.ledger.Tracked Ledger.Mirrors listing := by
  induction reaches with
  | refl =>
    obtain rfl := opened_eq opened
    exact tracked_onStore_empty listing _
  | @step h m before may tracked =>
    obtain ⟨known, space⟩ := placed_reached opened before
    refine (h.engine.perform_turn m).tracked Ledger.mirrors_tracks tracked ?_ ?_
    · rintro refusal rfl
      exact may
    · rintro rfl
      have back := tracked.onStore may
      rw [space, ← known] at back
      exact back

/-- In every run from an empty store whose writes succeed, after every move, another ledger on the
same store has the same sessions, if their documents can be read back.  The sessions that are listed
are those that are active or have changes, unless keys are found by a query and the text that they
start with has a NUL character: then no session is listed. -/
theorem store_mirrors {settings : Settings} {listing : Listing} {database : Database}
    {e : Engine} {issued : List ChangeId}
    (opened : Engine.opened settings (Store.empty listing) database = .ok e)
    (reaches : Reaches Answering (start e issued) h) (back : h.engine.ledger.ReadsBack) :
    (∀ s, let second := Ledger.onStore h.engine.ledger.store settings.storagePrefix
      second.isActive s = h.engine.ledger.isActive s ∧
        second.changes s = h.engine.ledger.changes s) ∧
    ((listing = .query → '\x00' ∉ settings.storagePrefix.toList) →
      ∃ sessions, h.engine.ledger.storedSessions = .ok sessions ∧ sessions.Nodup ∧
        ∀ s, s ∈ sessions ↔
          h.engine.ledger.isActive s = true ∨ h.engine.ledger.changes s ≠ []) ∧
    (listing = .query → '\x00' ∈ settings.storagePrefix.toList →
      h.engine.ledger.storedSessions = .ok []) := by
  obtain ⟨-, space⟩ := placed_reached opened reaches
  have tracked := mirrors_reached opened reaches
  have start : (Document.keyPrefix settings.storagePrefix).toList =
      settings.storagePrefix.toList ++ ":ledger:".toList := by
    rw [Document.keyPrefix, String.toList_append]
  have nul : '\x00' ∈ (Document.keyPrefix settings.storagePrefix).toList ↔
      '\x00' ∈ settings.storagePrefix.toList := by
    have fixed : '\x00' ∉ ":ledger:".toList := by decide
    rw [start, List.mem_append, or_iff_left fixed]
  refine ⟨fun s => ?_, fun plain => ?_, fun query hidden => ?_⟩
  · have session : (Ledger.onStore h.engine.ledger.store settings.storagePrefix).session s =
        ⟨h.engine.ledger.isActive s, false, h.engine.ledger.changes s⟩ := by
      rw [← Ledger.recovered_of_mirrors tracked.answers (tracked.each s) back, ← space]
      rfl
    have active := congrArg Session.active session
    have changes := congrArg Session.changes session
    exact ⟨active, changes⟩
  · have finds : h.engine.ledger.store.FindsAll (Document.keyPrefix settings.storagePrefix) := by
      intro query hidden
      exact plain (tracked.listing ▸ query) (nul.1 hidden)
    obtain ⟨sessions, listed, distinct, mem⟩ :=
      Document.storedSessions_of_findsAll tracked.answers finds
    refine ⟨sessions, ?_, distinct, fun s => ?_⟩
    · rw [Ledger.storedSessions, space, listed]
    · have entry := tracked.each s
      rw [Ledger.Mirrors, Ledger.raw?, space] at entry
      rw [mem, entry]
      exact Session.raw?_isSome s _
  · have none : Document.storedSessions h.engine.ledger.store settings.storagePrefix = .ok [] :=
      Document.storedSessions_of_nul tracked.answers (tracked.listing.trans query)
        (nul.2 hidden)
    rw [Ledger.storedSessions, space, none]

end History

namespace Sample

open Engine History

theorem renamed_answering : Reaches Answering (start engine []) renamed :=
  .step _ (.step _ .refl trivial) trivial

theorem renamed_session (s : SessionId) :
    renamed.engine.ledger.session s =
      if s = desk then ⟨true, false, renamed.engine.ledger.changes desk⟩ else Session.vacant := by
  by_cases same : s = desk
  · subst same
    rfl
  let first := (engine.ledger.load desk).written desk ⟨true, false, []⟩
  have ledger : renamed.engine.ledger =
      { first.load desk with clock := renamed.engine.ledger.clock }.written desk
        ⟨true, false, renamed.engine.ledger.changes desk⟩ := rfl
  have loaded := (first.load_loaded desk).trans
    (Ledger.withClock_loaded _ renamed.engine.ledger.clock)
  rw [ledger, Ledger.session_written, if_neg same, if_neg same, loaded.session,
    Ledger.session_written, if_neg same, (engine.ledger.load_loaded desk).session]
  rfl

theorem renamed_readsBack : renamed.engine.ledger.ReadsBack := by
  intro s raw entry
  rw [renamed_session] at entry
  split at entry
  · next same =>
    subst same
    let d := Document.current desk true (renamed.engine.ledger.changes desk)
    have floats : d.floats = [] := rfl
    have shallow : d.toJson.depth ≤ Json.depthLimit := by decide +kernel
    have back : Document.decode (Document.key renamed.engine.ledger.space desk) d.render desk =
        .ok d.withOneNaN := by
      refine Document.decode_of_depth _ rfl ?_ shallow
      rw [floats]
      exact fun x hx => absurd hx List.not_mem_nil
    have text : d.render = raw := Option.some.inj entry
    rw [← text, back]
    rfl
  · cases entry

/-- Another ledger on the store finds the renamed row, and the session is listed. -/
theorem store_mirrors_renamed :
    (Ledger.onStore renamed.engine.ledger.store Settings.default.storagePrefix).changes desk =
        renamed.engine.ledger.changes desk ∧
      ∃ sessions, renamed.engine.ledger.storedSessions = .ok sessions ∧ desk ∈ sessions := by
  obtain ⟨same, listed, -⟩ := store_mirrors engine_opened renamed_answering renamed_readsBack
  obtain ⟨sessions, eq, -, mem⟩ := listed (by decide)
  exact ⟨(same desk).2, sessions, eq, (mem desk).2 (.inl rfl)⟩

/-- An engine whose documents stand under keys with a NUL character, which are found by a query. -/
def hidden : Engine :=
  ⟨{ Settings.default with storagePrefix := "p\x00q" }, Ledger.onStore (Store.empty .query) "p\x00q",
    Audience.empty, Database.empty, Dict.empty, []⟩

/-- A session is active, and no session is listed. -/
theorem hidden_unlisted :
    Engine.opened hidden.settings (Store.empty .query) Database.empty = .ok hidden ∧
      (hidden.perform (.activate desk)).ledger.isActive desk = true ∧
      (hidden.perform (.activate desk)).ledger.storedSessions = .ok [] := by
  refine ⟨rfl, rfl, ?_⟩
  have none : Document.storedSessions (hidden.perform (.activate desk)).ledger.store "p\x00q" =
      .ok [] := Document.storedSessions_of_nul rfl rfl (by decide)
  have space : (hidden.perform (.activate desk)).ledger.space = "p\x00q" := rfl
  rw [Ledger.storedSessions, space, none]

end Sample

end DraftLedger
