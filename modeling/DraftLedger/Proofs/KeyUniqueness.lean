import DraftLedger.Proofs.Kept
import DraftLedger.Proofs.Moves
import DraftLedger.Proofs.Sample

/-!
# Changes with equal keys

No two changes of a session and a table have equal keys, with two exceptions: an insertion that takes
in an update gets the key of its new values without a look at the other changes, and a document gives
back some keys with floating-point cells as others.

* `TakesKey` : the update gives an insertion the key of another change.
* `Ledger.Blurs` : a document gives back two keys as equal ones.
* `Ledger.Parted` : the invariant.
* `Engine.Confuses` : the moves that make keys equal.
* `Engine.run_keysApart_iff` : keys stay apart exactly in the runs without such moves.
-/

set_option autoImplicit false

namespace DraftLedger

variable {changes result : List Change} {incoming : Change} {outcome : Outcome}

/-! ## Staging -/

theorem Change.not_sharesKey_of_not_receives {c : Change} {key : Row}
    (usable : incoming.usableKey? = some key)
    (passes : ¬ c.Receives incoming.table (.key key)) : ¬ incoming.SharesKey c := by
  rintro ⟨table, key', own, hi, hc, same⟩
  obtain ⟨hi', nonempty⟩ := usableKey?_eq_some.1 usable
  obtain rfl : key' = key := Option.some.inj (hi.symm.trans hi')
  have usable' : c.usableKey? = some own :=
    usableKey?_eq_some.2 ⟨hc, (Dict.isEmpty_of_beq same).symm.trans nonempty⟩
  exact passes ⟨table.symm, isTargetedBy_key_self usable' same⟩

/-- The update gives the insertion that takes it in the key of another change. -/
def TakesKey (changes : List Change) (incoming : Change) : Prop :=
  ∃ address before existing after, incoming.address? = some address ∧ incoming.kind = .update ∧
    changes = before ++ existing :: after ∧
    (∀ c ∈ before, ¬ c.Receives incoming.table address) ∧
    existing.Receives incoming.table address ∧ existing.kind = .insert ∧
    ∃ c ∈ before ++ after, (existing.insertAfter incoming).SharesKey c

theorem Change.takeIn_insert_update {existing incoming : Change} (insertion : existing.kind = .insert)
    (update : incoming.kind = .update) :
    existing.takeIn incoming =
      .ok (some (existing.insertAfter incoming), .merged existing.id) := by
  simp only [takeIn, insertion, update]
  rfl

theorem TakesKey.stage (takes : TakesKey changes incoming) :
    ∃ result outcome, stage changes incoming = .ok (result, outcome) ∧ ¬ Apart result := by
  obtain ⟨address, before, existing, after, found, update, rfl, passed, receives, insertion, c, hc,
    shared⟩ := takes
  have taken := Change.takeIn_insert_update insertion update
  refine ⟨before ++ existing.insertAfter incoming :: after, .merged existing.id, ?_, ?_⟩
  · have noInsertion : incoming.kind ≠ .insert := by simp [update]
    rw [stage_of_ne_insert found noInsertion, stageAt_of_receives passed receives, taken]
    simp [Except.map]
  · intro apart
    exact (apart_middle.1 apart).1 c hc shared

theorem Apart.stage (apart : Apart changes) (keyed : incoming.primaryKey = incoming.usableKey?)
    (staged : stage changes incoming = .ok (result, outcome)) (none : ¬ TakesKey changes incoming) :
    Apart result := by
  obtain ⟨address, found, ⟨rfl, -, free⟩ | ⟨noInsertion, before, existing, after, taken, rfl, passed,
    receives, takes, rfl⟩⟩ := stage_cases staged
  · refine apart_middle.2 ⟨fun c hc => ?_, by simpa using apart⟩
    have hc : c ∈ changes := by simpa using hc
    cases usable : incoming.usableKey? with
    | none =>
      rintro ⟨-, key, -, hk, -⟩
      rw [keyed, usable] at hk
      cases hk
    | some key =>
      have address_key : address = .key key := by simpa [Change.address?, usable] using found.symm
      subst address_key
      rcases free with ⟨-, full⟩ | free
      · cases full
      · exact Change.not_sharesKey_of_not_receives usable (free c hc)
  · obtain ⟨others, rest⟩ := apart_middle.1 apart
    have same {changed : Change} (table : changed.table = existing.table)
        (key : changed.primaryKey = existing.primaryKey) : Apart (before ++ changed :: after) := by
      refine apart_middle.2 ⟨fun c hc shared => others c hc ?_, rest⟩
      rwa [Change.SharesKey, table, key] at shared
    rcases Change.takeIn_cases takes noInsertion with
      ⟨-, -, rfl, -⟩ | ⟨insertion, update, rfl, -⟩ | ⟨-, -, rfl, -⟩ | ⟨-, -, rfl, -⟩
    · simpa using rest
    · have apart' : Apart (before ++ existing.insertAfter incoming :: after) :=
        apart_middle.2 ⟨fun c hc shared => none ⟨address, before, existing, after, found, update, rfl,
          passed, receives, insertion, c, hc, shared⟩, rest⟩
      simpa using apart'
    · simpa using same (Change.deleteAfter_table existing incoming)
        (Change.deleteAfter_primaryKey existing incoming)
    · simpa using same (Change.updateAfter_table existing incoming)
        (Change.updateAfter_primaryKey existing incoming)

theorem Apart.withAssignedKey {id : ChangeId} {key : Row} (apart : Apart changes)
    (nonempty : key.isEmpty = false)
    (assigned : Ledger.withAssignedKey changes id key = .ok result) : Apart result := by
  unfold Ledger.withAssignedKey at assigned
  split at assigned
  · cases assigned
  next before found after located =>
  obtain ⟨rfl, -⟩ := Ledger.locate?_eq_some located
  split at assigned
  · cases assigned
  split at assigned
  · cases assigned
  next free =>
  cases assigned
  refine apart_middle.2 ⟨fun c hc => ?_, (apart_middle.1 apart).2⟩
  have usable : ({ found with primaryKey := some key } : Change).usableKey? = some key :=
    Change.usableKey?_eq_some.2 ⟨rfl, nonempty⟩
  refine Change.not_sharesKey_of_not_receives usable fun receives => free ?_
  exact List.any_eq_true.2 ⟨c, hc, by simpa [Change.Receives] using receives⟩

/-! ## Documents -/

/-- Both changes are of one table and have keys that a document gives back as equal ones. -/
def Change.SharesKeyReadBack (a b : Change) : Prop :=
  a.table = b.table ∧ ∃ key key' seen seen', a.primaryKey = some key ∧ b.primaryKey = some key' ∧
    key.ReadsAs seen ∧ key'.ReadsAs seen' ∧ (seen == seen') = true

theorem Change.ReadsAs.sharesKey_iff {a b a' b' : Change} (ha : a.ReadsAs a') (hb : b.ReadsAs b') :
    a'.SharesKey b' ↔ a.SharesKeyReadBack b := by
  obtain ⟨-, -, ta, ka, -⟩ := ha.spec
  obtain ⟨-, -, tb, kb, -⟩ := hb.spec
  unfold SharesKey SharesKeyReadBack
  rw [ta, tb]
  refine and_congr_right fun _ => ⟨?_, ?_⟩
  · rintro ⟨seen, seen', hs, hs', same⟩
    rw [hs] at ka
    rw [hs'] at kb
    cases hp : a.primaryKey with
    | none => rw [hp] at ka; cases ka
    | some key =>
      cases hp' : b.primaryKey with
      | none => rw [hp'] at kb; cases kb
      | some key' =>
        rw [hp] at ka
        rw [hp'] at kb
        cases ka with
        | some ra => cases kb with
          | some rb => exact ⟨key, key', seen, seen', rfl, rfl, ra, rb, same⟩
  · rintro ⟨key, key', seen, seen', hk, hk', ra, rb, same⟩
    rw [hk] at ka
    rw [hk'] at kb
    generalize a'.primaryKey = pa at ka ⊢
    generalize b'.primaryKey = pb at kb ⊢
    cases ka with
    | some ra' => cases kb with
      | some rb' =>
        obtain rfl := Option.some.inj (ra.symm.trans ra')
        obtain rfl := Option.some.inj (rb.symm.trans rb')
        exact ⟨_, _, rfl, rfl, same⟩

/-- Changes that are read back are apart when no two of them share a key once read back. -/
theorem apart_readBack_iff {read : List Change} (h : List.Forall₂ Change.ReadsAs changes read) :
    Apart read ↔ changes.Pairwise fun a b => ¬ a.SharesKeyReadBack b := by
  induction h with
  | nil => exact ⟨fun _ => .nil, fun _ => .nil⟩
  | cons first rest ih =>
    refine List.pairwise_cons.trans (Iff.trans (and_congr ⟨?_, ?_⟩ ih) List.pairwise_cons.symm)
    · exact forall_mem_of_forall₂ rest.flip fun b' b rb => mt (first.sharesKey_iff rb).2
    · exact forall_mem_of_forall₂ rest fun b b' rb => mt (first.sharesKey_iff rb).1

namespace Ledger

variable {l l' l'' : Ledger} {s t : SessionId}

/-- The store has the document of changes of which two have different keys that are read back as equal
ones. -/
def Blurs (l : Ledger) (s : SessionId) : Prop :=
  ∃ active changes, l.store.entries.get? (Document.key l.space s) =
      some (Document.current s active changes).render ∧
    (l.kept? s).isSome = true ∧
    ∃ a b, [a, b].Sublist changes ∧ ¬ a.SharesKey b ∧ a.SharesKeyReadBack b

/-- Neighbouring floating-point numbers may be read back as one. -/
example :
    (Sample.floatKey 0x3c2d4c9c08b30fc0).ReadsAs (Sample.floatKey 0x3c2d4c9c08b30fc1) ∧
      (Sample.floatKey 0x3c2d4c9c08b30fc1).ReadsAs (Sample.floatKey 0x3c2d4c9c08b30fc1) :=
  ⟨rfl, rfl⟩

/-- The changes that are read back are apart exactly when those that were written are apart once read
back. -/
theorem apart_keptChanges_iff {active : Bool} {d : Document}
    (entry : l.store.entries.get? (Document.key l.space s) =
      some (Document.current s active changes).render)
    (kept : l.kept? s = some d) :
    Apart (l.keptChanges s) ↔ changes.Pairwise fun a b => ¬ a.SharesKeyReadBack b := by
  obtain ⟨-, -, read⟩ := Document.changes_of_read? (read?_of_kept? kept entry)
  rw [keptChanges, kept]
  exact apart_readBack_iff read

/-! ## The invariant -/

/-- The store answers, and keys are apart: in all sessions, and in the changes of which the store has
documents.  A session in memory without changes has none in the store. -/
structure Parted (l : Ledger) : Prop where
  answers : l.store.refusal = none
  sessions : ∀ s, Apart (l.changes s)
  documents : ∀ s raw, l.store.entries.get? (Document.key l.space s) = some raw →
    ∃ active changes, raw = (Document.current s active changes).render ∧ Apart changes
  empty : ∀ s x, l.sessions.get? s = some x → x.changes = [] → l.keptChanges s = []

namespace Parted

theorem recovered_changes (h : l.Parted) (s : SessionId) :
    (l.recovered s).changes = l.keptChanges s := by
  rw [Ledger.recovered_changes, if_pos h.answers]

theorem of_store (h : l.Parted) (space : l'.space = l.space) (store : l'.store = l.store)
    (sessions : ∀ s, l'.changes s = l.changes s)
    (empty : ∀ s x, l'.sessions.get? s = some x → x.changes = [] → l.keptChanges s = []) :
    l'.Parted where
  answers := store ▸ h.answers
  sessions s := sessions s ▸ h.sessions s
  documents := by
    rw [space, store]
    exact h.documents
  empty s x present none := (keptChanges_congr space store s).trans (empty s x present none)

theorem loaded (h : l.Parted) (loaded : l.Loaded l') : l'.Parted := by
  refine h.of_store loaded.space loaded.store (fun s => ?_) fun s x present none => ?_
  · simp only [changes, loaded.session]
  · rcases loaded.sessions s with same | ⟨-, recovered⟩
    · exact h.empty s x (same ▸ present) none
    · obtain rfl := Option.some.inj (present.symm.trans recovered)
      rw [← h.recovered_changes]
      exact none

theorem written (h : l.Parted) {x : Session} (apart : Apart x.changes) : (l.written s x).Parted where
  answers := (refusal_written x).trans h.answers
  sessions t := by
    rw [changes, session_written]
    split
    · exact apart
    · exact h.sessions t
  documents t raw entry := by
    rw [space_written] at entry
    by_cases same : t = s
    · subst same
      rw [entry_written, if_pos h.answers] at entry
      split at entry
      · cases entry
      · cases entry
        exact ⟨_, _, rfl, apart⟩
    · obtain ⟨store, eq, -, -, others⟩ := persist_eq (l.put s x) s
      rw [Ledger.written, eq] at entry
      exact h.documents t raw
        ((others _ fun key => same (Document.key_inj key)).symm.trans entry)
  empty t y present none := by
    by_cases same : t = s
    · subst same
      rw [get?_sessions_written, if_pos rfl] at present
      cases present
      exact keptChanges_written_nil h.answers none
    · rw [get?_sessions_written, if_neg same] at present
      rw [keptChanges, kept?_written_of_ne x same]
      exact h.empty t y present none

theorem thinned (h : l.Parted) (thinned : Thinned s l l') : l'.Parted := by
  induction thinned with
  | refl => exact h
  | drop x _ free free' fewer ih => exact ih.written ((ih.sessions s).sublist fewer)

theorem forgets (h : l.Parted) (forgets : Forgets s l l') : l'.Parted := by
  have kept : (l.session s).changes = [] := forgets.nothing.2.2
  have none : l.keptChanges s = [] := by
    cases present : l.sessions.get? s with
    | none =>
      rw [← h.recovered_changes]
      simpa [session, present] using kept
    | some x => exact h.empty s x present (by simpa [session, present] using kept)
  refine h.of_store forgets.space forgets.store (fun t => ?_) fun t x present empty => ?_
  · by_cases same : t = s
    · subst same
      rw [changes, session, forgets.gone, changes, kept]
      simp only [recovered_congr forgets.space forgets.store, h.recovered_changes, none]
    · simp only [changes, session, forgets.others t same, recovered_congr forgets.space forgets.store]
  · by_cases same : t = s
    · subst same
      rw [forgets.gone] at present
      cases present
    · exact h.empty t x (forgets.others t same ▸ present) empty

theorem trims (h : l.Parted) (trims : Trims l l') : l'.Parted := by
  induction trims with
  | refl => exact h
  | thinned thinned => exact h.thinned thinned
  | keyed free nonempty assigned =>
    exact h.written ((h.sessions _).withAssignedKey nonempty assigned)
  | forgets forgets => exact h.forgets forgets
  | keyColumns table columns => exact ⟨h.answers, h.sessions, h.documents, h.empty⟩
  | trans _ _ ih ih' => exact ih' (ih h)

theorem quiet (h : l.Parted) (quiet : Quiet l l') : l'.Parted := by
  obtain ⟨l₁, loaded, trims⟩ := quiet
  exact (h.loaded loaded).trims trims

theorem put (h : l.Parted) {x : Session} (present : (l.sessions.get? s).isSome = true)
    (same : x.changes = l.changes s) : (l.put s x).Parted := by
  refine h.of_store rfl rfl (fun t => ?_) fun t y found none => ?_
  · rw [changes, session_put]
    split
    · next here => rw [here, same]
    · rfl
  · by_cases here : t = s
    · subst here
      obtain rfl : x = y := by simpa [Ledger.put] using found
      obtain ⟨z, hz⟩ := Option.isSome_iff_exists.1 present
      refine h.empty t z hz ?_
      rw [← none, same]
      simp [changes, session, hz]
    · exact h.empty t y (by simpa [Ledger.put, Dict.get?_insert, here] using found) none

theorem unfreeze (h : l.Parted) (s : SessionId) : (l.unfreeze s).Parted :=
  unfreeze_keeps h
    (fun _ present => h.put (by simp [present]) (by simp [changes, session, present]))
    fun _ _ forgets still => still.forgets forgets

/-- The changes that the store has of a session are apart unless their document blurs keys. -/
theorem apart_keptChanges (h : l.Parted) (s : SessionId) :
    Apart (l.keptChanges s) ↔ ¬ l.Blurs s := by
  constructor
  · rintro apart ⟨active, changes, entry, kept, a, b, sub, -, shared⟩
    obtain ⟨d, kept⟩ := Option.isSome_iff_exists.1 kept
    have pairwise := (apart_keptChanges_iff entry kept).1 apart
    exact List.pairwise_iff_forall_sublist.1 pairwise sub shared
  · intro clear
    cases kept : l.kept? s with
    | none =>
      have none : l.keptChanges s = [] := by simp [keptChanges, kept]
      rw [none]
      exact .nil
    | some d =>
      cases entry : l.store.entries.get? (Document.key l.space s) with
      | none => simp [kept?, entry] at kept
      | some raw =>
        obtain ⟨active, changes, rfl, apart⟩ := h.documents s raw entry
        refine (apart_keptChanges_iff entry kept).2 (List.pairwise_iff_forall_sublist.2 ?_)
        intro a b sub shared
        exact clear ⟨active, changes, entry, by simp [kept], a, b, sub,
          List.pairwise_iff_forall_sublist.1 apart sub, shared⟩

/-- A ledger that is opened on the same store keeps the invariant unless a document blurs keys. -/
theorem onStore (h : l.Parted) (clear : ∀ s, ¬ l.Blurs s) :
    (Ledger.onStore l.store l.space).Parted where
  answers := h.answers
  sessions s := by
    have same : (Ledger.onStore l.store l.space).changes s = l.keptChanges s := h.recovered_changes s
    rw [same]
    exact (h.apart_keptChanges s).2 (clear s)
  documents := h.documents
  empty s x present := by simp [Ledger.onStore] at present

end Parted

end Ledger

/-! ## Runs -/

namespace Engine

variable {e : Engine}

/-- The engine after several moves. -/
def run (e : Engine) (moves : List Move) : Engine := moves.foldl perform e

theorem run_append (e : Engine) (past moves : List Move) :
    e.run (past ++ moves) = (e.run past).run moves :=
  List.foldl_append

/-- Nobody subscribes, and the store answers as before. -/
def Move.IsPlain : Move → Prop
  | .subscribe _ _ | .storage _ => False
  | _ => True

/-- No two changes of a session and a table have equal keys. -/
def KeysApart (e : Engine) : Prop := ∀ s, Apart (e.ledger.changes s)

/-- The move stages an update that takes a key, or gives back a document that blurs keys. -/
def Confuses (e : Engine) : Move → Prop
  | .record s edit id now =>
    edit.check = .ok () ∧ (e.ledger.session s).frozen = false ∧
      (e.ledger.session s).active = true ∧
      ∃ stamp, (e.ledger.load s).clock.next? now = some stamp ∧
        TakesKey (e.ledger.changes s)
          ((edit.withRegisteredKey e.ledger.keyColumns).toChange id stamp)
  | .reopen => ∃ s, e.ledger.Blurs s
  | _ => False

theorem Turn.parted {m : Move} {e' : Engine} (turn : e.Turn m e') (plain : m.IsPlain)
    (space : e.ledger.space = e.settings.storagePrefix) (h : e.ledger.Parted)
    (clear : ¬ e.Confuses m) : e'.ledger.Parted := by
  cases turn with
  | quiet aside ledger => exact h.quiet ledger
  | @staged _ _ _ _ stamp _ _ _ _ aside loaded checked free active reading staged ledger unheard =>
    refine ((h.loaded loaded).written ?_).thinned ledger
    exact (h.sessions _).stage (by simp [Edit.usableKey?]) staged
      fun takes => clear ⟨checked, free, active, stamp, reading, takes⟩
  | sent sent =>
    rw [sent.ledger]
    have loaded := e.ledger.load_loaded ‹Apply.Request›.session
    refine (h.loaded loaded).put (by simp [Ledger.get?_load]) ?_
    rw [Ledger.changes, loaded.session]
  | dropped settings found ending ledger =>
    rw [ledger]
    exact h.unfreeze _
  | committed settings found success ledger =>
    rw [ledger, Ledger.clearApplied_ledger]
    refine ((h.loaded (e.ledger.load_loaded _)).written ?_).unfreeze _
    exact (h.sessions _).sublist List.filter_sublist
  | storage refusal => exact plain.elim
  | reopen =>
    have back := h.onStore fun s blurs => clear ⟨s, blurs⟩
    rw [space] at back
    exact back

theorem not_keysApart_of_confuses {m : Move} (unheard : e.audience.listeners = [])
    (space : e.ledger.space = e.settings.storagePrefix) (h : e.ledger.Parted)
    (confuses : e.Confuses m) : ¬ (e.perform m).KeysApart := by
  intro apart
  cases m with
  | record s edit id now =>
    obtain ⟨checked, free, active, stamp, reading, takes⟩ := confuses
    obtain ⟨result, outcome, staged, equal⟩ := takes.stage
    have recorded := Ledger.record_of_stage checked free active reading staged
    have ledger : (e.perform (.record s edit id now)).ledger =
        (e.ledger.record s edit id now).ledger := hearing_unheard _ unheard
    refine equal ?_
    have here := apart s
    rw [ledger, recorded, Ledger.changes, Ledger.session_written, if_pos rfl] at here
    exact here
  | reopen =>
    obtain ⟨s, blurs⟩ := confuses
    have store : e.reopened.ledger.store = e.ledger.store := rfl
    have recovered := Ledger.recovered_congr space.symm store s
    have back : (e.perform .reopen).ledger.changes s = e.ledger.keptChanges s := by
      rw [← h.recovered_changes s, ← recovered]
      rfl
    exact (h.apart_keptChanges s).1 (back ▸ apart s) blurs
  | _ => exact confuses

theorem keysApart_iff_of_parted {moves : List Move} (plain : ∀ m ∈ moves, m.IsPlain)
    (unheard : e.audience.listeners = []) (space : e.ledger.space = e.settings.storagePrefix)
    (h : e.ledger.Parted) :
    (∀ past, past <+: moves → (e.run past).KeysApart) ↔
      ∀ past m, past ++ [m] <+: moves → ¬ (e.run past).Confuses m := by
  induction moves generalizing e with
  | nil =>
    refine iff_of_true (fun past start => ?_) fun past m start => ?_
    · obtain rfl := List.prefix_nil.1 start
      exact h.sessions
    · have none := List.prefix_nil.1 start
      simp at none
  | cons m rest ih =>
    have plain' := plain m List.mem_cons_self
    have turn := e.perform_turn m
    obtain ⟨settings, space'⟩ := turn.space space
    have unheard' : (e.perform m).audience.listeners = [] :=
      perform_unheard unheard fun only reaction same => by
        rw [same] at plain'
        exact plain'
    have further (clear : ¬ e.Confuses m) :=
      ih (fun n hn => plain n (List.mem_cons_of_mem m hn)) unheard' (settings ▸ space')
        (turn.parted plain' space h clear)
    constructor
    · intro apart
      have clear : ¬ e.Confuses m := fun confuses =>
        not_keysApart_of_confuses unheard space h confuses
          (apart [m] (by simp))
      intro past n start
      cases past with
      | nil =>
        obtain ⟨rfl, -⟩ := List.cons_prefix_cons.1 start
        exact clear
      | cons first past =>
        obtain ⟨rfl, shorter⟩ := List.cons_prefix_cons.1 start
        exact (further clear).1 (fun past' start' => apart (first :: past')
          (List.cons_prefix_cons.2 ⟨rfl, start'⟩)) past n shorter
    · intro clear
      have clear₀ : ¬ e.Confuses m := clear [] m (by simp)
      intro past start
      cases past with
      | nil => exact h.sessions
      | cons first past =>
        obtain ⟨rfl, shorter⟩ := List.cons_prefix_cons.1 start
        exact (further clear₀).2 (fun past' n start' => clear (first :: past') n
          (List.cons_prefix_cons.2 ⟨rfl, start'⟩)) past shorter

theorem opened_parted {settings : Settings} {listing : Listing} {database : Database}
    (opened : Engine.opened settings (Store.empty listing) database = .ok e) :
    e.ledger.Parted ∧ e.audience.listeners = [] ∧ e.ledger.space = e.settings.storagePrefix := by
  obtain rfl := opened_eq opened
  refine ⟨⟨rfl, fun s => .nil, fun s raw entry => ?_, fun s x present => ?_⟩, rfl, rfl⟩
  · simp [Ledger.onStore, Store.empty] at entry
  · simp [Ledger.onStore] at present

/-- From an empty store on, the keys of all sessions stay apart exactly when no move confuses keys: no
update gives the insertion that takes it in the key of another change, and no document that is given
back blurs keys. -/
theorem run_keysApart_iff {settings : Settings} {listing : Listing} {database : Database}
    {moves : List Move}
    (opened : Engine.opened settings (Store.empty listing) database = .ok e)
    (plain : ∀ m ∈ moves, m.IsPlain) :
    (∀ past, past <+: moves → (e.run past).KeysApart) ↔
      ∀ past m, past ++ [m] <+: moves → ¬ (e.run past).Confuses m := by
  obtain ⟨parted, unheard, space⟩ := opened_parted opened
  exact keysApart_iff_of_parted plain unheard space parted

end Engine

namespace Sample

open Engine

/-- Two rows are inserted, and the first one is given the key of the second one. -/
def rekeying : List Move :=
  [.activate desk, .setKeyColumns items ["id"],
    .record desk (.insert items (item 1 "a") none) (id 1) 0,
    .record desk (.insert items (item 2 "b") none) (id 2) 0,
    .record desk (.update items (some (key 1)) Dict.empty (key 2)) (id 3) 0]

/-- An insertion as it is staged. -/
def inserted (n : UInt8) (row key : Row) (counter : UInt32) : Change :=
  ⟨id n, .insert, items, some key, none, some row, ⟨0, counter⟩, ⟨0, counter⟩⟩

theorem rekeying_changes : (engine.run (rekeying.take 4)).ledger.changes desk =
    [inserted 1 (item 1 "a") (key 1) 1, inserted 2 (item 2 "b") (key 2) 2] := rfl

theorem rekeying_takesKey (stamp : Stamp) :
    TakesKey [inserted 1 (item 1 "a") (key 1) 1, inserted 2 (item 2 "b") (key 2) 2]
      (((Edit.update items (some (key 1)) Dict.empty (key 2)).withRegisteredKey
        (engine.run (rekeying.take 4)).ledger.keyColumns).toChange (id 3) stamp) :=
  ⟨.key (key 1), [], _, _, rfl, rfl, rfl, by simp, ⟨rfl, rfl⟩, rfl, _, List.mem_cons_self, rfl, key 2,
    key 2, rfl, rfl, rfl⟩

/-- The last edit confuses keys, so they do not stay apart. -/
theorem run_keysApart_rekeying : ¬ ∀ past, past <+: rekeying → (engine.run past).KeysApart := by
  intro apart
  have clear := (run_keysApart_iff engine_opened (by simp [rekeying, Move.IsPlain])).1 apart
  refine clear (rekeying.take 4) _ List.prefix_rfl ⟨rfl, rfl, rfl, ⟨0, 3⟩, rfl, ?_⟩
  rw [rekeying_changes]
  exact rekeying_takesKey _

/-- Both insertions have the second key in the end. -/
theorem rekeying_not_keysApart : ¬ (engine.run rekeying).KeysApart := by
  intro apart
  have differ := List.pairwise_pair.1 (apart desk)
  exact differ ⟨rfl, key 2, key 2, rfl, rfl, rfl⟩

end Sample

end DraftLedger
