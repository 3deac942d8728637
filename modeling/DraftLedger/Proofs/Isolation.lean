import DraftLedger.Proofs.Course
import DraftLedger.Proofs.Listing
import DraftLedger.Proofs.ReadBack
import DraftLedger.Proofs.Sample

/-!
# Sessions and spaces keep apart

A move changes the session that it is about and the document of that session, and nothing of any other
session.  The keys of two spaces are different whatever the sessions are called, since the name of a
space has no colon, so that engines with different spaces share a store without noticing.  A document
tells its session, and so none is taken for the one of another session.

* `Ledger.Confined` : nothing but one session and its document is different.
* `Document.space_of_startsWith` : a key tells its space.
* `Store.DiffersIn`, `Document.storedSessions_of_differsIn` : stores that differ under keys of another
  space list the same sessions.
* `Engine.Housed` : an engine with a space that stands.
* `Document.decode_of_other` : a document is refused under the key of another session.
* `Engine.isolated` : sessions, spaces and documents keep apart.
-/

set_option autoImplicit false

namespace DraftLedger

/-! ## One session at a time -/

namespace Ledger

variable {l l' l'' : Ledger} {m : Engine.Move} {s t : SessionId}

/-- The second ledger differs from the first one in a session and its document, if at all. -/
structure Confined (s : SessionId) (l l' : Ledger) : Prop where
  space : l'.space = l.space
  refusal : l'.store.refusal = l.store.refusal
  listing : l'.store.listing = l.store.listing
  entries : ∀ k, k ≠ Document.key l.space s → l'.store.entries.get? k = l.store.entries.get? k
  sessions : ∀ t, t ≠ s → l'.session t = l.session t

namespace Confined

theorem refl (s : SessionId) (l : Ledger) : Confined s l l :=
  ⟨rfl, rfl, rfl, fun _ _ => rfl, fun _ _ => rfl⟩

theorem trans (h : Confined s l l') (h' : Confined s l' l'') : Confined s l l'' where
  space := h'.space.trans h.space
  refusal := h'.refusal.trans h.refusal
  listing := h'.listing.trans h.listing
  entries k other := (h'.entries k (h.space ▸ other)).trans (h.entries k other)
  sessions t other := (h'.sessions t other).trans (h.sessions t other)

/-- A session that is replaced in memory, or leaves it, leaves the others and the store. -/
theorem of_sessions (space : l'.space = l.space) (store : l'.store = l.store)
    (others : ∀ t, t ≠ s → l'.session t = l.session t) : Confined s l l' :=
  ⟨space, congrArg Store.refusal store, congrArg Store.listing store,
    fun k _ => by rw [store], others⟩

theorem loaded (h : l.Loaded l') (s : SessionId) : Confined s l l' :=
  of_sessions h.space h.store fun t _ => h.session t

theorem put (l : Ledger) (s : SessionId) (x : Session) : Confined s l (l.put s x) :=
  of_sessions rfl rfl fun t other => by rw [session_put, if_neg other]

theorem erase (l : Ledger) (s : SessionId) :
    Confined s l { l with sessions := l.sessions.erase s } := by
  refine of_sessions rfl rfl fun t other => ?_
  simp only [session, Dict.get?_erase, if_neg other]
  rfl

theorem written (l : Ledger) (s : SessionId) (x : Session) : Confined s l (l.written s x) := by
  obtain ⟨store, eq, refusal, listing, entries⟩ := persist_eq (l.put s x) s
  have same : l.written s x = { l.put s x with store } := eq
  refine ⟨space_written x, ?_, ?_, ?_, fun t other => by rw [session_written, if_neg other]⟩
  · rw [same]
    exact refusal
  · rw [same]
    exact listing
  · rw [same]
    exact entries

end Confined

theorem Handles.confined (h : Handles m s l l') : Confined s l l' := by
  induction h with
  | refl => exact .refl s _
  | load l => exact .loaded (l.load_loaded s) s
  | thin => exact .written _ _ _
  | assign => exact .written _ _ _
  | mark => exact .put _ _ _
  | forget => exact .erase _ _
  | trans _ _ ih ih' => exact ih.trans ih'

theorem Course.confined (h : Course m s l l') : Confined s l l' := by
  have read (clock : Clock) : Confined s l { l.load s with clock } :=
    .loaded ((l.load_loaded s).trans (withClock_loaded _ _)) s
  cases h with
  | still h => exact h.confined
  | ticked => exact read _
  | staged _ _ _ rest => exact ((read _).trans (.written _ _ _)).trans rest.confined

end Ledger

namespace Engine

variable {e : Engine} {m : Move} {s t : SessionId}

theorem startApply_slot (e : Engine) (request : Apply.Request) (script : Script) (id : ApplyId)
    (other : t ≠ request.session) : (e.startApply request script id).2.slot t = e.slot t := by
  have start := e.startApply_cases request script id
  generalize e.startApply request script id = result at start
  have claimed : (e.claimed request.session id).slot t = e.slot t := by
    rw [slot_claimed, if_neg other]
  cases start with
  | busy applying => rfl
  | asked idle => exact (slot_withSlot e _ t _).trans (if_neg other)
  | refused idle frozen => rfl
  | ended idle free answer checked => rw [slot_release, if_neg fun here => other here.1, claimed]
  | waiting idle free => exact claimed

theorem slot_elsewhere (about : e.sessionOf? m = some s) (other : t ≠ s) :
    (e.perform m).slot t = e.slot t := by
  have aside (leaves : m.LeavesApplies) : (e.perform m).slot t = e.slot t := by
    simp only [Engine.slot, e.perform_slots leaves]
  have ended {call : Apply.Call} {id : ApplyId} (found : e.call? id = some call)
      (same : call.session = s) (ends : m = .finishApply id ∨ m = .abandonApply id) :
      (e.perform m).slot t = e.slot t := by
    obtain ⟨ending, -, -, closed⟩ := ending_closed found ends
    rw [closed.slot, if_neg fun here => other (here.1.trans same)]
  cases m with
  | startApply request script id =>
    cases about
    exact e.startApply_slot request script id other
  | finishApply id =>
    obtain ⟨call, found, same⟩ := Option.map_eq_some_iff.1 about
    exact ended found same (.inl rfl)
  | abandonApply id =>
    obtain ⟨call, found, same⟩ := Option.map_eq_some_iff.1 about
    exact ended found same (.inr rfl)
  | reopen => cases about
  | _ => exact aside trivial

end Engine

/-! ## One space at a time -/

namespace Document

variable {space space' : String} {s t : SessionId}

/-- The name of a space ends where the first colon of a key stands. -/
theorem takeWhile_key (valid : Settings.isSpaceName space = true) (rest : List Char) :
    ((keyPrefix space).toList ++ rest).takeWhile (· ≠ ':') = space.toList := by
  simp only [Settings.isSpaceName, Bool.and_eq_true, Bool.not_eq_true'] at valid
  have plain : ∀ c ∈ space.toList, (c ≠ ':' : Bool) = true := by
    intro c hc
    refine decide_eq_true fun colon => ?_
    have contained := List.contains_iff_mem.2 (colon ▸ hc)
    rw [valid.2] at contained
    cases contained
  have shape : (keyPrefix space).toList ++ rest =
      space.toList ++ ':' :: ("ledger:".toList ++ rest) := by
    rw [keyPrefix, String.toList_append, List.append_assoc]
    rfl
  rw [shape, List.takeWhile_append_of_pos plain, List.takeWhile_cons_of_neg (by decide),
    List.append_nil]

/-- A key tells its space, whatever the session is called. -/
theorem space_of_startsWith (valid : Settings.isSpaceName space = true)
    (valid' : Settings.isSpaceName space' = true)
    (start : Store.startsWith (key space s) (keyPrefix space') = true) : space = space' := by
  obtain ⟨rest, eq⟩ := Store.startsWith_iff.1 start
  rw [key, String.toList_append] at eq
  have names := congrArg (List.takeWhile (· ≠ ':')) eq
  rw [takeWhile_key valid', takeWhile_key valid] at names
  exact String.toList_injective names.symm

theorem key_ne_of_space_ne (valid : Settings.isSpaceName space = true)
    (valid' : Settings.isSpaceName space' = true) (differ : space ≠ space') :
    key space' t ≠ key space s := fun same =>
  differ (space_of_startsWith valid valid' (same ▸ startsWith_key space' t))

end Document

namespace Dict

variable {κ ν : Type} [LinearKey κ]

theorem lookup_filter_key (p : κ → Bool) (q : κ) (l : List (κ × ν)) :
    lookup q (l.filter fun e => p e.1) = if p q then lookup q l else none := by
  induction l with
  | nil => simp [lookup]
  | cons hd rest ih =>
    obtain ⟨k, v⟩ := hd
    by_cases same : q = k
    · subst same
      cases kept : p q <;> simp [kept, lookup, ih]
    · cases kept : p k <;> simp [kept, lookup, same, ih]

/-- Dictionaries that agree on the keys of some sort have the same keys of that sort. -/
theorem filter_keys_congr {a b : Dict κ ν} {p : κ → Bool}
    (agree : ∀ k, p k = true → a.get? k = b.get? k) : a.keys.filter p = b.keys.filter p := by
  have same : a.filter (fun k _ => p k) = b.filter (fun k _ => p k) := by
    refine ext_get? fun q => ?_
    simp only [get?, filter, lookup_filter_key]
    split
    · next kept => exact agree q kept
    · rfl
  have keys (d : Dict κ ν) : (d.filter fun k _ => p k).keys = d.keys.filter p := by
    simp only [Dict.keys, filter, List.filter_map]
    rfl
  rw [← keys, ← keys, same]

end Dict

namespace Store

variable {store store' : Store} {start : String}

/-- The second store differs from the first one under keys of some sort, if at all. -/
structure DiffersIn (sort : String → Prop) (store store' : Store) : Prop where
  refusal : store'.refusal = store.refusal
  listing : store'.listing = store.listing
  entries : ∀ k, ¬ sort k → store'.entries.get? k = store.entries.get? k

theorem startsWith_of_select {k : String}
    (selected : k.toList.take (start.toList.takeWhile fun c => c ≠ '\x00').length =
      start.toList) : startsWith k start = true := by
  rw [startsWith_iff, ← selected]
  exact List.take_prefix _ _

theorem DiffersIn.keysWithPrefix {sort : String → Prop} (h : DiffersIn sort store store')
    (other : ∀ k, sort k → startsWith k start = false) :
    store'.keysWithPrefix start = store.keysWithPrefix start := by
  have agree (p : String → Bool) (starts : ∀ k, p k = true → startsWith k start = true) :
      store'.entries.keys.filter p = store.entries.keys.filter p := by
    refine Dict.filter_keys_congr fun k chosen => h.entries k fun differs => ?_
    have start := starts k chosen
    rw [other k differs] at start
    cases start
  have scan : store'.scanKeys start = store.scanKeys start := by
    rw [scanKeys_eq, scanKeys_eq]
    exact agree _ fun k chosen => chosen
  have select : store'.selectKeys start = store.selectKeys start :=
    agree _ fun k chosen => startsWith_of_select (of_decide_eq_true chosen)
  simp only [Store.keysWithPrefix, answering, h.refusal, h.listing, scan, select]

theorem DiffersIn.get {sort : String → Prop} (h : DiffersIn sort store store') {k : String}
    (other : ¬ sort k) : store'.get k = store.get k := by
  simp only [Store.get, answering, h.refusal, h.entries k other]

end Store

namespace Document

variable {store store' : Store} {space space' : String}

/-- The keys of the documents of a space. -/
def IsKeyIn (space k : String) : Prop := ∃ s, k = key space s

theorem load_of_differsIn (h : store.DiffersIn (IsKeyIn space) store')
    (valid : Settings.isSpaceName space = true) (valid' : Settings.isSpaceName space' = true)
    (differ : space ≠ space') (t : SessionId) : load store' space' t = load store space' t := by
  have other : ¬ IsKeyIn space (key space' t) := by
    rintro ⟨s, same⟩
    exact key_ne_of_space_ne valid valid' differ same
  simp only [load, h.get other]

/-- Stores that differ under keys of another space list the same sessions. -/
theorem storedSessions_of_differsIn (h : store.DiffersIn (IsKeyIn space) store')
    (valid : Settings.isSpaceName space = true) (valid' : Settings.isSpaceName space' = true)
    (differ : space ≠ space') : storedSessions store' space' = storedSessions store space' := by
  have other (k : String) (inSpace : IsKeyIn space k) :
      Store.startsWith k (keyPrefix space') = false := by
    obtain ⟨s, rfl⟩ := inSpace
    exact Bool.eq_false_iff.2 fun start => differ (space_of_startsWith valid valid' start)
  simp only [storedSessions, h.keysWithPrefix other]

end Document

namespace Engine

variable {e other : Engine} {m : Move}

/-- The settings of the engine stand, and its documents are in the space of the settings. -/
structure Housed (e : Engine) : Prop where
  settled : e.settings.check = .ok ()
  space : e.ledger.space = e.settings.storagePrefix

theorem housed_opened {settings : Settings} {store : Store} {database : Database}
    (opened : Engine.opened settings store database = .ok e) : e.Housed := by
  obtain rfl := opened_eq opened
  refine ⟨?_, rfl⟩
  unfold Engine.opened at opened
  cases checked : settings.check with
  | error refusal => rw [checked] at opened; cases opened
  | ok _ => rfl

theorem Housed.perform (h : e.Housed) (m : Move) : (e.perform m).Housed := by
  obtain ⟨settings, space⟩ := (e.perform_turn m).space h.space
  exact ⟨settings ▸ h.settled, settings ▸ space⟩

theorem Housed.valid (h : e.Housed) : Settings.isSpaceName e.ledger.space = true := by
  have settled := h.settled
  unfold Settings.check at settled
  rw [h.space]
  split at settled
  · cases settled
  · split at settled
    · next valid => exact valid
    · cases settled

theorem perform_differsIn (e : Engine) (answering : ∀ refusal, m ≠ .storage refusal) :
    e.ledger.store.DiffersIn (Document.IsKeyIn e.ledger.space) (e.perform m).ledger.store := by
  cases about : e.sessionOf? m with
  | some s =>
    have confined := (e.perform_course about).confined
    exact ⟨confined.refusal, confined.listing, fun k elsewhere =>
      confined.entries k fun here => elsewhere ⟨s, here⟩⟩
  | none =>
    have same : (e.perform m).ledger.store = e.ledger.store := by
      rcases e.perform_elsewhere about with ⟨keyColumns, eq⟩ | ⟨refusal, eq⟩ | rfl
      · rw [eq]
      · exact absurd eq (answering refusal)
      · rfl
    rw [same]
    exact ⟨rfl, rfl, fun _ _ => rfl⟩

end Engine

/-! ## One document for one session -/

/-- The document of one session is refused under the key of another one. -/
theorem Document.decode_of_other {space raw : String} {s t : SessionId} {d : Document}
    (document : decode (key space s) raw s = .ok d) (other : t ≠ s) :
    decode (key space t) raw t = .error (.stale (key space t) (.otherSession s)) := by
  unfold decode at document ⊢
  split at document
  · cases document
  · next found read =>
    split at document
    · cases document
    next version =>
    split at document
    · cases document
    next mine =>
    have mine : found.session = s := Decidable.not_not.1 mine
    simp only [version, if_false, mine, if_pos other.symm]

namespace Engine

/-- Sessions, spaces and documents keep apart.

* A move on one session leaves the others: whether they are active, their changes, whether they are held,
  the phase of their applies, and every entry of the store but the document of the one session.
* No move of one engine changes what another one with another space has or lists on the same store.
* The document of one session under the key of another one is not loaded, and the other session is what
  it is without a document. -/
theorem isolated :
    (∀ (e : Engine) (m : Move) (s t : SessionId), e.sessionOf? m = some s → t ≠ s →
      (e.perform m).ledger.isActive t = e.ledger.isActive t ∧
        (e.perform m).ledger.changes t = e.ledger.changes t ∧
        (e.perform m).isFrozen t = e.isFrozen t ∧ (e.perform m).phase t = e.phase t ∧
        ∀ k, k ≠ Document.key e.ledger.space s →
          (e.perform m).ledger.store.entries.get? k = e.ledger.store.entries.get? k) ∧
      (∀ (e other : Engine) (m : Move), e.Housed → other.Housed →
        e.settings.storagePrefix ≠ other.settings.storagePrefix →
        other.ledger.store = e.ledger.store → (∀ refusal, m ≠ .storage refusal) →
        let after : Ledger := { other.ledger with store := (e.perform m).ledger.store }
        (∀ t, Document.load after.store after.space t =
            Document.load other.ledger.store other.ledger.space t) ∧
          (∀ t, after.session t = other.ledger.session t) ∧
          after.storedSessions = other.ledger.storedSessions) ∧
      ∀ (l : Ledger) (s t : SessionId) (raw : String) (d : Document),
        Document.decode (Document.key l.space s) raw s = .ok d → t ≠ s → l.raw? t = some raw →
        (∀ d', Document.load l.store l.space t ≠ .ok (some d')) ∧
          l.recovered t = Session.vacant := by
  refine ⟨fun e m s t about other => ?_, fun e other m housed housed' differ shared answering => ?_,
    fun l s t raw d document other copied => ?_⟩
  · have confined := (e.perform_course about).confined
    have session := confined.sessions t other
    exact ⟨congrArg Session.active session, congrArg Session.changes session,
      congrArg Session.frozen session, congrArg Apply.Slot.phase (slot_elsewhere about other),
      confined.entries⟩
  · have differs := e.perform_differsIn answering
    rw [← shared] at differs
    have apart : e.ledger.space ≠ other.ledger.space := by
      rw [housed.space, housed'.space]
      exact differ
    have load := Document.load_of_differsIn differs housed.valid housed'.valid apart
    have listed := Document.storedSessions_of_differsIn differs housed.valid housed'.valid apart
    refine ⟨load, fun t => ?_, ?_⟩
    · simp only [Ledger.session, Ledger.recovered, load]
    · simp only [Ledger.storedSessions, listed]
  · have refused := Document.decode_of_other document other
    refine ⟨fun d' loaded => ?_, Ledger.recovered_of_refused copied refused⟩
    have entry : l.store.entries.get? (Document.key l.space t) = some raw := copied
    simp only [Document.load, Store.get, Store.answering, entry] at loaded
    cases answers : l.store.refusal with
    | none =>
      rw [answers] at loaded
      simp [refused, Except.map] at loaded
    | some reason =>
      rw [answers] at loaded
      cases loaded

end Engine

namespace Sample

open Engine

/-- A session whose name has the key of a document of another space in it. -/
def clerk : SessionId := ⟨"annex:ledger:desk"⟩

/-- An engine with another space on the same store. -/
def annex : Engine :=
  { engine with
      settings := { Settings.default with storagePrefix := "annex" }
      ledger := Ledger.onStore (Store.empty .walk) "annex" }

/-- The document of one session stands under the key of another one. -/
def copied : Ledger :=
  { ledger with
      sessions := Dict.empty
      store.entries := Dict.ofList
        [(Document.key ledger.space clerk, (Document.current desk true []).render)] }

theorem isolated_desk :
    (engine.perform (.activate clerk)).ledger.isActive clerk = true ∧
      (engine.perform (.activate clerk)).ledger.isActive desk = engine.ledger.isActive desk ∧
      { annex.ledger with store := (engine.perform (.activate clerk)).ledger.store }.storedSessions =
        annex.ledger.storedSessions ∧
      copied.recovered clerk = Session.vacant := by
  obtain ⟨sessions, spaces, documents⟩ := isolated
  have housed' : annex.Housed := ⟨rfl, rfl⟩
  refine ⟨rfl, (sessions engine (.activate clerk) clerk desk rfl (by decide)).1, ?_, ?_⟩
  · exact (spaces engine annex (.activate clerk) (housed_opened engine_opened) housed' (by decide) rfl
      nofun).2.2
  · have document := Document.decode_of_depth (d := Document.current desk true [])
      (Document.key copied.space desk) rfl (fun x hx => absurd hx List.not_mem_nil) (by decide)
    exact (documents copied desk clerk _ _ document (by decide) (Dict.get?_insert_self _ _ _)).2

end Sample

end DraftLedger
