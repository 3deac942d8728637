import DraftLedger.Proofs.Isolation
import DraftLedger.Proofs.JsonPrefix
import DraftLedger.Proofs.Operations

/-!
# Documents that are cut short

The text of a document that was cut short is the text of no document, so that a session is never taken
for one with fewer changes.  It counts as a session without a document, until it is written again.

* `Document.decode_of_torn` : no proper start of the text of a document is read.
* `Ledger.Damaged` : a session is inactive and empty, and the store has a text for it that is refused.
* `Engine.Spares` : what happens without a mutation of a session that succeeds.
* `Engine.torn_document` : a text that was cut short counts as none, and gives way to the next mutation.
-/

set_option autoImplicit false

namespace DraftLedger

/-- The text of a document is not read when its end is missing. -/
theorem Document.decode_of_torn {d : Document} {p q : String} (whole : p ++ q = d.render)
    (torn : q ≠ "") (key : String) (s : SessionId) : decode key p s = .error .unreadable := by
  have chars : p.toList ++ q.toList = d.toJson.text := by
    rw [← String.toList_append, whole, render, Json.render, String.toList_ofList]
  have missing : q.toList ≠ [] := fun nothing => torn (String.toList_eq_nil_iff.1 nothing)
  have unread : Json.read? p = none := Json.ofText?_of_torn d.toJson_plain chars missing
  simp only [decode, read?, unread, Option.bind_none]

namespace Ledger

variable {l l' : Ledger} {s t : SessionId} {raw : String}

/-! ## Damaged texts -/

/-- The store has a text for the session that is refused, and the session is inactive and has no
changes. -/
structure Damaged (l : Ledger) (s : SessionId) (raw : String) : Prop where
  entry : l.raw? s = some raw
  refused : ∃ error, Document.decode (Document.key l.space s) raw s = .error error
  inactive : l.isActive s = false
  empty : l.changes s = []

theorem Damaged.recovered (h : l.Damaged s raw) : l.recovered s = Session.vacant := by
  obtain ⟨error, refused⟩ := h.refused
  exact recovered_of_refused h.entry refused

theorem damaged_onStore {store : Store} {space : String} {error : StorageError}
    (entry : store.entries.get? (Document.key space s) = some raw)
    (refused : Document.decode (Document.key space s) raw s = .error error) :
    (onStore store space).Damaged s raw := by
  have vacant : (onStore store space).session s = Session.vacant :=
    recovered_of_refused (l := onStore store space) entry refused
  exact ⟨entry, ⟨error, refused⟩, congrArg Session.active vacant, congrArg Session.changes vacant⟩

namespace Damaged

/-- The text stays damaged as long as nothing is written under its key and nothing is staged. -/
theorem congr (h : l.Damaged s raw) (space : l'.space = l.space) (entry : l'.raw? s = l.raw? s)
    (inactive : l'.isActive s = l.isActive s) (changes : l'.changes s = l.changes s) :
    l'.Damaged s raw :=
  ⟨entry.trans h.entry, space ▸ h.refused, inactive.trans h.inactive, changes.trans h.empty⟩

theorem of_absent (h : l.Damaged s raw) (space : l'.space = l.space)
    (entry : l'.raw? s = l.raw? s) (absent : l'.sessions.get? s = none) : l'.Damaged s raw := by
  obtain ⟨error, refused⟩ := h.refused
  rw [← space] at refused
  have vacant : l'.session s = Session.vacant := by
    simp only [session, absent]
    exact recovered_of_refused (entry.trans h.entry) refused
  refine ⟨entry.trans h.entry, ⟨error, refused⟩, ?_, ?_⟩
  · rw [isActive, vacant]
    rfl
  · rw [Ledger.changes, vacant]
    rfl

theorem loaded (h : l.Damaged s raw) (loaded : l.Loaded l') : l'.Damaged s raw :=
  h.congr loaded.space (raw?_congr loaded.space loaded.store s)
    (congrArg Session.active (loaded.session s)) (loaded.changes s)

theorem mark (h : l.Damaged s raw) {x : Session} (present : l.session s = x) (frozen : Bool) :
    (l.put s { x with frozen }).Damaged s raw := by
  subst present
  refine h.congr rfl rfl ?_ ?_
  · rw [isActive, session_put, if_pos rfl]
    rfl
  · rw [Ledger.changes, session_put, if_pos rfl]
    rfl

theorem unfreeze (h : l.Damaged s raw) : (l.unfreeze s).Damaged s raw :=
  unfreeze_keeps (p := fun l => l.Damaged s raw) h
    (fun x present => h.mark (by simp only [session, present]) false)
    fun _ _ forgets still => still.of_absent forgets.space
      (raw?_congr forgets.space forgets.store s) forgets.gone

theorem confined (h : l.Damaged s raw) (confined : Confined t l l') (other : s ≠ t) :
    l'.Damaged s raw := by
  have elsewhere : Document.key l.space s ≠ Document.key l.space t :=
    fun same => other (Document.key_inj same)
  have session := confined.sessions s other
  refine h.congr confined.space ?_ (congrArg Session.active session)
    (congrArg Session.changes session)
  rw [raw?, confined.space]
  exact confined.entries _ elsewhere

theorem storage (h : l.Damaged s raw) (refusal : Option String) :
    Damaged { l with store.refusal := refusal } s raw := by
  cases present : l.sessions.get? s with
  | none => exact h.of_absent rfl rfl present
  | some x =>
    have same : session { l with store.refusal := refusal } s = l.session s := by
      simp only [session, present]
    exact h.congr rfl rfl (congrArg Session.active same) (congrArg Session.changes same)

end Damaged

/-- What the store has of a session after it was written without a change: what it had when it does not
take anything, else nothing, or a document that is read back while the session is active. -/
theorem raw?_written_empty {x : Session} (empty : x.changes = []) :
    (l.store.refusal ≠ none → (l.written s x).raw? s = l.raw? s) ∧
      (l.store.refusal = none → x.active = false → (l.written s x).raw? s = none) ∧
      (l.store.refusal = none → x.active = true →
        ∃ text d, (l.written s x).raw? s = some text ∧
          Document.decode (Document.key l.space s) text s = .ok d ∧ d.active = true ∧
          d.changes = []) := by
  have entry := entry_written (l := l) (s := s) x
  have here : (l.written s x).raw? s =
      (l.written s x).store.entries.get? (Document.key l.space s) := by rw [raw?, space_written]
  rw [← here, empty] at entry
  refine ⟨fun refuses => ?_, fun answers inactive => ?_, fun answers active => ?_⟩
  · rw [entry, if_neg refuses]
    rfl
  · rw [entry, if_pos answers, inactive]
    rfl
  · rw [if_pos answers, active] at entry
    have document := Document.decode_of_depth (d := Document.current s true [])
      (Document.key l.space s) rfl (fun x hx => absurd hx List.not_mem_nil)
      (show 2 ≤ 127 by decide)
    exact ⟨_, _, entry, document, rfl, rfl⟩

end Ledger

namespace Engine

variable {e e' : Engine} {s : SessionId} {op : Operation} {raw : String}

/-! ## Without a mutation -/

/-- The move does no more to a session than looking at it, or taking it for an apply and giving it
back. -/
inductive Move.Reads (s : SessionId) : Move → Prop
  | look : Reads s (.look s)
  | generate (dialect : Dialect) (scope : Option Table) : Reads s (.generate s dialect scope)
  | startApply {request : Apply.Request} (same : request.session = s) (script : Script)
      (id : ApplyId) : Reads s (.startApply request script id)
  | abandonApply (id : ApplyId) : Reads s (.abandonApply id)

/-- What happens to an engine while no mutation of a session succeeds. -/
inductive Spares (s : SessionId) (e : Engine) : Engine → Prop
  | refl : Spares s e e
  | other {e' : Engine} (m : Move) (h : Spares s e e') (other : e'.sessionOf? m ≠ some s) :
      Spares s e (e'.perform m)
  | reads {e' : Engine} {m : Move} (h : Spares s e e') (reads : m.Reads s) :
      Spares s e (e'.perform m)
  | failed {e' e'' : Engine} {op : Operation} {failure : Ledger.Failure} (h : Spares s e e')
      (failed : e'.operate s op = (some failure, e'')) : Spares s e e''

theorem damaged_other {m : Move} (h : e.ledger.Damaged s raw) (housed : e.Housed)
    (other : e.sessionOf? m ≠ some s) : (e.perform m).ledger.Damaged s raw := by
  cases about : e.sessionOf? m with
  | some t =>
    exact h.confined (e.perform_course about).confined fun same => other (same ▸ about)
  | none =>
    rcases e.perform_elsewhere about with ⟨keyColumns, eq⟩ | ⟨refusal, rfl⟩ | rfl
    · rw [eq]
      exact h.congr rfl rfl rfl rfl
    · exact h.storage refusal
    · refine h.of_absent housed.space.symm ?_ rfl
      rw [Ledger.raw?, Ledger.raw?, housed.space]
      rfl

theorem damaged_startApply (h : e.ledger.Damaged s raw) {request : Apply.Request}
    (same : request.session = s) (script : Script) (id : ApplyId) :
    (e.startApply request script id).2.ledger.Damaged s raw := by
  subst same
  have start := e.startApply_cases request script id
  generalize e.startApply request script id = result at start
  have loaded := e.ledger.load_loaded request.session
  have claimed : (e.claimed request.session id).ledger.Damaged request.session raw :=
    (h.loaded loaded).mark (loaded.session request.session) true
  cases start with
  | busy applying => exact h
  | asked idle => exact h
  | refused idle frozen => exact h.loaded loaded
  | ended idle free answer checked =>
    rw [(release_spec _ _ _ _).2.1]
    exact claimed.unfreeze
  | waiting idle free => exact claimed

theorem damaged_reads {m : Move} (h : e.ledger.Damaged s raw) (housed : e.Housed)
    (reads : m.Reads s) : (e.perform m).ledger.Damaged s raw := by
  cases reads with
  | look => exact h.loaded (e.ledger.visit_loaded s)
  | generate dialect scope => exact h.loaded (e.ledger.visit_loaded s)
  | startApply same script id => exact damaged_startApply h same script id
  | abandonApply id =>
    by_cases about : e.sessionOf? (.abandonApply id) = some s
    · obtain ⟨call, found, rfl⟩ := Option.map_eq_some_iff.1 about
      have same : e.perform (.abandonApply id) =
          (e.withoutCall id).release call.session id .idle := by
        simp only [perform, abandonApply, found]
      rw [same, (release_spec _ _ _ _).2.1]
      exact h.unfreeze
    · exact damaged_other h housed about

theorem Housed.failed {failure : Ledger.Failure} (h : e.Housed)
    (failed : e.operate s op = (some failure, e')) : e'.Housed := by
  obtain ⟨l', spent, rfl⟩ := operate_spent failed
  exact ⟨h.settled, spent.loaded.space.trans h.space⟩

theorem Spares.damaged (spares : e.Spares s e') (h : e.ledger.Damaged s raw) (housed : e.Housed) :
    e'.ledger.Damaged s raw ∧ e'.Housed := by
  induction spares with
  | refl => exact ⟨h, housed⟩
  | other m _ other ih => exact ⟨damaged_other ih.1 ih.2 other, ih.2.perform m⟩
  | reads _ reads ih => exact ⟨damaged_reads ih.1 ih.2 reads, ih.2.perform _⟩
  | failed _ failed ih =>
    obtain ⟨l', spent, eq⟩ := operate_spent failed
    refine ⟨?_, ih.2.failed failed⟩
    rw [eq]
    exact ih.1.loaded spent.loaded

/-! ## The next mutation -/

theorem ending_replacing {α : Type} {replacement : Session → Except Error (Session × α)}
    {kind : α → EventKind} (unstaged : ∀ a outcome, kind a ≠ .recorded outcome)
    (ok : e.ending .refused (fun l => l.replacing s replacement kind) = (none, e')) :
    ∃ x answer, replacement (e.ledger.session s) = .ok (x, answer) ∧
      e'.ledger = (e.ledger.load s).written s x := by
  unfold ending mutate at ok
  simp only at ok
  rcases e.ledger.replacing_cases s replacement kind with ⟨refusal, eq⟩ | ⟨x, answer, -, done, eq⟩
  · rw [eq] at ok
    cases ok
  · rw [eq] at ok
    cases ok
    refine ⟨x, answer, done, ?_⟩
    have mem : (((e.ledger.load s).written s x).sessions.get? s).isSome = true := by
      simp [Ledger.get?_sessions_written]
    exact Audience.announce_ledger ⟨s, kind answer⟩ (_, e.audience) mem (unstaged answer)

/-- A replacement of a session that no apply holds succeeds when it can be made. -/
theorem ending_of_free {α : Type} {replacement : Session → Except Error (Session × α)}
    {kind : α → EventKind} {x : Session} {answer : α}
    (unstaged : ∀ a outcome, kind a ≠ .recorded outcome)
    (free : (e.ledger.session s).frozen = false)
    (done : replacement (e.ledger.session s) = .ok (x, answer)) :
    ∃ e', e.ending .refused (fun l => l.replacing s replacement kind) = (none, e') ∧
      e'.ledger.session s = x := by
  have succeeds : (e.ending .refused fun l => l.replacing s replacement kind).1 = none := by
    unfold ending mutate
    simp only [Ledger.replacing, (e.ledger.load_loaded s).session s, free, done, Ledger.succeeded,
      Bool.false_eq_true, if_false]
  have ok : e.ending .refused (fun l => l.replacing s replacement kind) =
      (none, (e.ending .refused fun l => l.replacing s replacement kind).2) := Prod.ext succeeds rfl
  obtain ⟨x', _, done', eq⟩ := ending_replacing unstaged ok
  rw [done] at done'
  cases done'
  exact ⟨_, ok, by rw [eq, Ledger.session_written, if_pos rfl]⟩

theorem operate_of_free (free : (e.ledger.session s).frozen = false) :
    (∃ e', e.operate s .activate = (none, e') ∧ e'.ledger.isActive s = true) ∧
      ∀ discard, ∃ e', e.operate s (.deactivate discard) = (none, e') ∧
        e'.ledger.isActive s = false := by
  refine ⟨?_, fun discard => ?_⟩
  · have done : ∃ e', e.operate s .activate = (none, e') ∧
        e'.ledger.session s = { e.ledger.session s with active := true } :=
      ending_of_free nofun free rfl
    obtain ⟨e', ok, session⟩ := done
    exact ⟨e', ok, congrArg Session.active session⟩
  · have done : ∃ e', e.operate s (.deactivate discard) = (none, e') ∧
        e'.ledger.session s = { e.ledger.session s with
          active := false
          changes := if discard then [] else e.ledger.changes s } :=
      ending_of_free nofun free rfl
    obtain ⟨e', ok, session⟩ := done
    exact ⟨e', ok, congrArg Session.active session⟩

/-- A mutation that succeeds on a session that is inactive and empty leaves it empty and writes it. -/
theorem operate_of_empty (inactive : e.ledger.isActive s = false) (empty : e.ledger.changes s = [])
    (ok : e.operate s op = (none, e')) :
    ∃ x : Session, x.changes = [] ∧ e'.ledger = (e.ledger.load s).written s x := by
  have empty : (e.ledger.session s).changes = [] := empty
  cases op with
  | activate =>
    obtain ⟨x, _, done, eq⟩ := ending_replacing nofun ok
    cases done
    exact ⟨{ e.ledger.session s with active := true }, empty, eq⟩
  | deactivate discard =>
    obtain ⟨x, _, done, eq⟩ := ending_replacing nofun ok
    cases done
    exact ⟨_, by simp [empty], eq⟩
  | record edit id now =>
    cases now with
    | none => cases ok
    | some now =>
      unfold operate ending mutate at ok
      simp only at ok
      rcases e.ledger.record_exact s edit id now with
        ⟨failure, l', eq, -⟩ | ⟨_, changes, outcome, -, -, active, -⟩
      · rw [eq] at ok
        cases ok
      · rw [show (e.ledger.session s).active = false from inactive] at active
        cases active
  | remove id =>
    obtain ⟨x, _, done, eq⟩ := ending_replacing nofun ok
    rw [empty] at done
    cases done
  | clearAll =>
    obtain ⟨x, _, done, eq⟩ := ending_replacing nofun ok
    cases done
    exact ⟨_, by simp, eq⟩
  | clearTable table =>
    obtain ⟨x, _, done, eq⟩ := ending_replacing nofun ok
    cases done
    exact ⟨_, by simp [empty], eq⟩
  | assignPrimaryKey id key =>
    unfold operate at ok
    simp only [Ledger.assignPrimaryKey] at ok
    split at ok
    · cases ok
    · obtain ⟨x, _, done, eq⟩ := ending_replacing nofun ok
      rw [empty] at done
      cases done

theorem operate_damaged (damaged : e.ledger.Damaged s raw) (ok : e.operate s op = (none, e')) :
    e'.ledger.changes s = [] ∧
      (e.ledger.store.refusal ≠ none → e'.ledger.raw? s = some raw) ∧
      (e.ledger.store.refusal = none → e'.ledger.isActive s = false → e'.ledger.raw? s = none) ∧
      (e.ledger.store.refusal = none → e'.ledger.isActive s = true →
        ∃ text d, e'.ledger.raw? s = some text ∧
          Document.decode (Document.key e'.ledger.space s) text s = .ok d ∧ d.active = true ∧
          d.changes = []) := by
  obtain ⟨x, empty, eq⟩ := operate_of_empty damaged.inactive damaged.empty ok
  have loaded := e.ledger.load_loaded s
  have session : e'.ledger.session s = x := by rw [eq, Ledger.session_written, if_pos rfl]
  have space : e'.ledger.space = (e.ledger.load s).space := by rw [eq, Ledger.space_written]
  have entry : (e.ledger.load s).raw? s = some raw :=
    (Ledger.raw?_congr loaded.space loaded.store s).trans damaged.entry
  have written := Ledger.raw?_written_empty (l := e.ledger.load s) (s := s) empty
  rw [← eq, ← space, loaded.store, entry] at written
  rw [Ledger.changes, Ledger.isActive, session]
  exact ⟨empty, written⟩

/-- A text that is left of a document when its end is missing is never taken for a document: it is
unreadable, so that the session of a new ledger is inactive and empty, and stays so while no mutation of
it succeeds.  The next mutation that succeeds leaves it empty; if the store takes the write, the text is
gone when the session is inactive, and a document that is read back stands in its place when it is
active. -/
theorem torn_document {d : Document} {p q : String} (whole : p ++ q = d.render) (torn : q ≠ "")
    (s : SessionId) :
    (∀ key, Document.decode key p s = .error .unreadable) ∧
      ∀ (settings : Settings) (store : Store) (database : Database) (e₀ e : Engine),
        Engine.opened settings store database = .ok e₀ →
        store.entries.get? (Document.key settings.storagePrefix s) = some p →
        e₀.Spares s e →
        e.ledger.isActive s = false ∧ e.ledger.changes s = [] ∧ e.ledger.raw? s = some p ∧
          ∀ op e', e.operate s op = (none, e') → e'.ledger.changes s = [] ∧
            (e.ledger.store.refusal ≠ none → e'.ledger.raw? s = some p) ∧
            (e.ledger.store.refusal = none → e'.ledger.isActive s = false →
              e'.ledger.raw? s = none) ∧
            (e.ledger.store.refusal = none → e'.ledger.isActive s = true →
              ∃ text d', e'.ledger.raw? s = some text ∧
                Document.decode (Document.key e'.ledger.space s) text s = .ok d' ∧
                d'.active = true ∧ d'.changes = []) := by
  have unreadable (key : String) := Document.decode_of_torn whole torn key s
  refine ⟨unreadable, fun settings store database e₀ e opened entry spares => ?_⟩
  have first : e₀.ledger.Damaged s p := by
    obtain rfl := opened_eq opened
    exact Ledger.damaged_onStore entry (unreadable _)
  obtain ⟨damaged, -⟩ := spares.damaged first (housed_opened opened)
  exact ⟨damaged.inactive, damaged.empty, damaged.entry, fun op e' ok =>
    operate_damaged damaged ok⟩

end Engine

namespace Sample

open Engine

/-- The document of an active session without changes. -/
def blank : Document := Document.current desk true []

/-- The start of its text, and the rest. -/
def torn : String × String :=
  (String.ofList (blank.toJson.text.take 12), String.ofList (blank.toJson.text.drop 12))

theorem torn_whole : torn.1 ++ torn.2 = blank.render ∧ torn.2 ≠ "" := by
  refine ⟨?_, fun nothing => ?_⟩
  · rw [torn, ← String.ofList_append, List.take_append_drop]
    rfl
  · have missing := congrArg String.toList nothing
    rw [torn, String.toList_ofList] at missing
    revert missing
    decide

/-- An engine on a store where the text is torn. -/
def tornEngine : Engine :=
  { engine with
      ledger := Ledger.onStore
        { Store.empty .walk with
            entries := Dict.empty.insert (Document.key Settings.default.storagePrefix desk) torn.1 }
        Settings.default.storagePrefix }

theorem tornEngine_opened :
    Engine.opened Settings.default tornEngine.ledger.store Database.empty = .ok tornEngine := rfl

theorem tornEngine_damaged : tornEngine.ledger.Damaged desk torn.1 :=
  Ledger.damaged_onStore (Dict.get?_insert_self _ _ _)
    (Document.decode_of_torn torn_whole.1 torn_whole.2 _ _)

theorem tornEngine_session : tornEngine.ledger.session desk = Session.vacant :=
  tornEngine_damaged.recovered

theorem tornEngine_free : (tornEngine.ledger.session desk).frozen = false :=
  congrArg Session.frozen tornEngine_session

/-- When the session is activated, the torn text gives way to a document. -/
theorem torn_document_activated :
    ∃ e', tornEngine.operate desk .activate = (none, e') ∧ e'.ledger.isActive desk = true ∧
      ∃ text d', e'.ledger.raw? desk = some text ∧
        Document.decode (Document.key e'.ledger.space desk) text desk = .ok d' := by
  obtain ⟨-, run⟩ := torn_document torn_whole.1 torn_whole.2 desk
  obtain ⟨-, -, -, next⟩ := run _ _ _ _ _ tornEngine_opened (Dict.get?_insert_self _ _ _) .refl
  obtain ⟨e', ok, active⟩ := (operate_of_free tornEngine_free).1
  obtain ⟨-, -, -, replaced⟩ := next .activate e' ok
  obtain ⟨text, d', kept, decoded, -⟩ := replaced rfl active
  exact ⟨e', ok, active, text, d', kept, decoded⟩

/-- When the session is deactivated, which succeeds, the torn text is removed, and no document stands in
its place. -/
theorem torn_text_removed :
    torn.1 ++ torn.2 = blank.render ∧ torn.2 ≠ "" ∧
      Engine.opened Settings.default tornEngine.ledger.store Database.empty = .ok tornEngine ∧
      tornEngine.ledger.raw? desk = some torn.1 ∧
      ∃ e', tornEngine.operate desk (.deactivate false) = (none, e') ∧
        e'.ledger.raw? desk = none := by
  obtain ⟨e', ok, inactive⟩ := (operate_of_free tornEngine_free).2 false
  obtain ⟨-, -, removed, -⟩ := operate_damaged tornEngine_damaged ok
  exact ⟨torn_whole.1, torn_whole.2, tornEngine_opened, tornEngine_damaged.entry, e', ok,
    removed rfl inactive⟩

end Sample

end DraftLedger
