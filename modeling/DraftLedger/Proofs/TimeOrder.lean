import DraftLedger.Proofs.Chronicle
import DraftLedger.Proofs.KeyUniqueness
import DraftLedger.Proofs.Operations
import DraftLedger.Proofs.Placement
import Mathlib.Data.List.Induction

/-!
# The order of a ledger is the order of time

The clock shows the first time of a change when it joins the end of its list, and its last time when it
takes in an edit.  The clock is never behind a change in memory, and moves past those that come with a
session from the store, so that what it shows next is later than all of them.

* `TimeOrdered` : changes that stand in the order in which they were staged.
* `stage_timeOrdered`, `stage_laterThan` : staging an edit at a later time.
* `Ledger.Chronological` : the invariant of the sessions in memory, the clock and the store.
* `Engine.Leads` : the engines that moves lead to.
* `Engine.reached_timeOrdered` : time order in every state that is reached from an empty store.
-/

set_option autoImplicit false

namespace DraftLedger

/-! ## Lists of changes -/

/-- The changes ascend in their first times, none was edited before it was there, and no two were edited
last at the same time. -/
structure TimeOrdered (changes : List Change) : Prop where
  ascending : changes.Pairwise fun a b => a.timestamp < b.timestamp
  aged : ∀ c ∈ changes, c.timestamp = c.updatedAt ∨ c.timestamp < c.updatedAt
  apart : changes.Pairwise fun a b => a.updatedAt ≠ b.updatedAt

/-- The last edit of the change is later than all times of other changes. -/
def Change.LaterThan (c : Change) (changes : List Change) : Prop :=
  ∀ b ∈ changes, b.timestamp < c.updatedAt ∧ b.updatedAt < c.updatedAt

/-- The first and the last time of a change. -/
def Change.times (c : Change) : Stamp × Stamp := (c.timestamp, c.updatedAt)

section Lists

variable {changes changes' result before after : List Change} {incoming existing changed c : Change}
  {outcome : Outcome} {id : ChangeId} {key : Row}

theorem Stamp.lt_trans {a b c : Stamp} (h : a < b) (h' : b < c) : a < c :=
  lt_iff_rank.2 (Nat.lt_trans (lt_iff_rank.1 h) (lt_iff_rank.1 h'))

theorem Stamp.ne_of_lt {a b : Stamp} (h : a < b) : a ≠ b := by
  rintro rfl
  exact Nat.lt_irrefl _ (lt_iff_rank.1 h)

theorem timeOrdered_nil : TimeOrdered [] := ⟨.nil, fun _ h => absurd h List.not_mem_nil, .nil⟩

namespace TimeOrdered

theorem sublist (h : TimeOrdered changes) (sub : changes'.Sublist changes) : TimeOrdered changes' :=
  ⟨h.ascending.sublist sub, fun c hc => h.aged c (sub.subset hc), h.apart.sublist sub⟩

theorem congr (h : TimeOrdered changes) (same : changes.map Change.times = changes'.map Change.times) :
    TimeOrdered changes' := by
  have pairs {r : Stamp × Stamp → Stamp × Stamp → Prop}
      (hr : changes.Pairwise fun a b => r a.times b.times) :
      changes'.Pairwise fun a b => r a.times b.times := by
    rw [← List.pairwise_map, ← same, List.pairwise_map]
    exact hr
  refine ⟨pairs (r := fun a b => a.1 < b.1) h.ascending, fun c hc => ?_,
    pairs (r := fun a b => a.2 ≠ b.2) h.apart⟩
  obtain ⟨b, hb, eq⟩ := List.mem_map.1 (same ▸ List.mem_map_of_mem (f := Change.times) hc)
  obtain ⟨first, last⟩ := Prod.mk.inj eq
  rw [← first, ← last]
  exact h.aged b hb

theorem append (h : TimeOrdered changes) (later : incoming.LaterThan changes)
    (now : incoming.timestamp = incoming.updatedAt) : TimeOrdered (changes ++ [incoming]) := by
  refine ⟨?_, fun c hc => ?_, ?_⟩
  · refine List.pairwise_append.2 ⟨h.ascending, List.pairwise_singleton _ _, fun b hb c hc => ?_⟩
    rw [List.mem_singleton.1 hc, now]
    exact (later b hb).1
  · rcases List.mem_append.1 hc with old | new
    · exact h.aged c old
    · rw [List.mem_singleton.1 new]
      exact .inl now
  · refine List.pairwise_append.2 ⟨h.apart, List.pairwise_singleton _ _, fun b hb c hc => ?_⟩
    rw [List.mem_singleton.1 hc]
    exact Stamp.ne_of_lt (later b hb).2

theorem edited (h : TimeOrdered (before ++ existing :: after))
    (later : incoming.LaterThan (before ++ existing :: after))
    (continues : changed.Continues existing incoming) :
    TimeOrdered (before ++ changed :: after) := by
  have time := continues.timestamp
  have last := continues.updatedAt
  refine ⟨?_, fun c hc => ?_, ?_⟩
  · have ascending := h.ascending
    simp only [List.pairwise_append, List.pairwise_cons, List.forall_mem_cons] at ascending ⊢
    rw [time]
    exact ascending
  · rcases List.mem_append.1 hc with front | back
    · exact h.aged c (List.mem_append_left _ front)
    · rcases List.mem_cons.1 back with rfl | back
      · rw [time, last]
        exact .inr (later existing (List.mem_append_right _ List.mem_cons_self)).1
      · exact h.aged c (List.mem_append_right _ (List.mem_cons_of_mem _ back))
  · have apart := h.apart
    simp only [List.pairwise_append, List.pairwise_cons, List.forall_mem_cons] at apart ⊢
    obtain ⟨front, ⟨-, back⟩, across⟩ := apart
    refine ⟨front, ⟨fun c hc => ?_, back⟩, fun c hc => ⟨?_, (across c hc).2⟩⟩
    · rw [last]
      exact (Stamp.ne_of_lt
        (later c (List.mem_append_right _ (List.mem_cons_of_mem _ hc))).2).symm
    · rw [last]
      exact Stamp.ne_of_lt (later c (List.mem_append_left _ hc)).2

end TimeOrdered

/-- Staging keeps changes in the order of time, if it is later than all of them. -/
theorem stage_timeOrdered (ordered : TimeOrdered changes) (later : incoming.LaterThan changes)
    (now : incoming.timestamp = incoming.updatedAt)
    (staged : stage changes incoming = .ok (result, outcome)) : TimeOrdered result := by
  obtain ⟨address, -, ⟨rfl, -⟩ | ⟨noInsertion, before, existing, after, taken, rfl, -, -, takes,
    rfl⟩⟩ := stage_cases staged
  · exact ordered.append later now
  · cases taken with
    | none =>
      have fewer : (before ++ after).Sublist (before ++ existing :: after) :=
        (List.sublist_cons_self _ _).append_left _
      simpa using ordered.sublist fewer
    | some changed =>
      simpa using ordered.edited later (Change.takeIn_continues takes noInsertion)

/-- What staging puts into the list is later than all that was there. -/
theorem stage_laterThan (later : incoming.LaterThan changes)
    (staged : stage changes incoming = .ok (result, outcome)) :
    (∀ c ∈ result, c ∈ changes ∨ c.LaterThan changes) ∧
      (outcome = .cancelled outcome.changeId ∨
        ∃ c ∈ result, c.id = outcome.changeId ∧ c.LaterThan changes) := by
  obtain ⟨new, time, -, renewed⟩ := stage_renews staged
  refine ⟨fun c hc => (renewed c hc).imp_right ?_, ?_⟩
  · rintro rfl
    unfold Change.LaterThan
    rw [time]
    exact later
  · obtain ⟨address, -, ⟨rfl, rfl, -⟩ | ⟨noInsertion, before, existing, after, taken, rfl, -, -,
      takes, rfl⟩⟩ := stage_cases staged
    · exact .inr ⟨incoming, by simp, rfl, later⟩
    · have there (changed : Change) (some : taken = some changed)
          (same : outcome.changeId = existing.id) :
          ∃ c ∈ before ++ taken.toList ++ after, c.id = outcome.changeId ∧
            c.LaterThan (before ++ existing :: after) := by
        subst some
        have continues := Change.takeIn_continues takes noInsertion
        refine ⟨changed, by simp, continues.id.trans same.symm, ?_⟩
        unfold Change.LaterThan
        rw [continues.updatedAt]
        exact later
      rcases Change.takeIn_cases takes noInsertion with
        ⟨-, -, -, rfl⟩ | ⟨-, -, new, rfl⟩ | ⟨-, -, new, rfl⟩ | ⟨-, -, new, rfl⟩
      · exact .inl rfl
      all_goals exact .inr (there _ new rfl)

theorem times_withAssignedKey (assigned : Ledger.withAssignedKey changes id key = .ok result) :
    changes.map Change.times = result.map Change.times := by
  unfold Ledger.withAssignedKey at assigned
  split at assigned
  · cases assigned
  next before found after located =>
  obtain ⟨rfl, -⟩ := Ledger.locate?_eq_some located
  split at assigned
  · cases assigned
  split at assigned
  · cases assigned
  · cases assigned
    simp [Change.times]

theorem times_readBack {read : List Change} (h : List.Forall₂ Change.ReadsAs changes read) :
    changes.map Change.times = read.map Change.times := by
  induction h with
  | nil => rfl
  | cons first _ ih =>
    obtain ⟨time, last⟩ := first.times
    simp only [List.map_cons, Change.times, time, last, ih]

end Lists

/-! ## The ledger -/

namespace Ledger

variable {l l' : Ledger} {m : Engine.Move} {s t : SessionId}

/-- The changes of all sessions, in memory and in the store, are in the order of time, and the clock is
not behind those in memory. -/
structure Chronological (l : Ledger) : Prop where
  memory : ∀ s x, l.sessions.get? s = some x → TimeOrdered x.changes
  clock : ∀ s x, l.sessions.get? s = some x → ∀ c ∈ x.changes, c.updatedAt.rank ≤ l.clock.rank
  stored : ∀ s, TimeOrdered (l.keptChanges s)

namespace Chronological

theorem laterThan (h : l.Chronological) {x : Session} (incoming : Change)
    (present : l.sessions.get? s = some x) (ahead : l.clock.rank < incoming.updatedAt.rank) :
    incoming.LaterThan x.changes := by
  intro b hb
  have last : b.updatedAt < incoming.updatedAt :=
    Stamp.lt_iff_rank.2 (Nat.lt_of_le_of_lt (h.clock s x present b hb) ahead)
  refine ⟨?_, last⟩
  rcases (h.memory s x present).aged b hb with same | earlier
  · rw [same]
    exact last
  · exact Stamp.lt_trans earlier last

theorem recovered (h : l.Chronological) (s : SessionId) : TimeOrdered (l.recovered s).changes := by
  rw [recovered_changes]
  split
  · exact h.stored s
  · exact timeOrdered_nil

theorem changes (h : l.Chronological) (s : SessionId) : TimeOrdered (l.changes s) := by
  unfold Ledger.changes session
  cases present : l.sessions.get? s with
  | some x => exact h.memory s x present
  | none => exact h.recovered s

theorem load (h : l.Chronological) (s : SessionId) : (l.load s).Chronological := by
  obtain ⟨ahead, seen⟩ := l.rank_load s
  refine ⟨fun t x present => ?_, fun t x present c hc => ?_, fun t => ?_⟩
  · rcases (l.load_loaded s).sessions t with same | ⟨-, recovered⟩
    · exact h.memory t x (same ▸ present)
    · obtain rfl := Option.some.inj (present.symm.trans recovered)
      exact h.recovered t
  · by_cases same : t = s
    · subst same
      obtain rfl := Option.some.inj ((l.get?_load t).symm.trans present)
      cases absent : l.sessions.get? t with
      | none => exact seen absent c hc
      | some x =>
        rw [session, absent] at hc
        exact Nat.le_trans (h.clock t x absent c hc) ahead
    · rw [get?_load_of_ne l same] at present
      exact Nat.le_trans (h.clock t x present c hc) ahead
  · rw [keptChanges, (l.load_loaded s).kept?]
    exact h.stored t

theorem ticked (h : l.Chronological) {clock : Clock} (ahead : l.clock.rank ≤ clock.rank) :
    Chronological { l with clock } :=
  ⟨h.memory, fun s x present c hc => Nat.le_trans (h.clock s x present c hc) ahead, h.stored⟩

/-- A session may be written whose changes are in the order of time and not ahead of the clock. -/
theorem written (h : l.Chronological) {x : Session} (ordered : TimeOrdered x.changes)
    (behind : ∀ c ∈ x.changes, c.updatedAt.rank ≤ l.clock.rank) :
    (l.written s x).Chronological := by
  have clock : (l.written s x).clock = l.clock := by
    obtain ⟨store, eq, -⟩ := persist_eq (l.put s x) s
    rw [Ledger.written, eq]
    rfl
  refine ⟨fun t y present => ?_, fun t y present => ?_, fun t => ?_⟩
  · rw [get?_sessions_written] at present
    split at present
    · exact Option.some.inj present ▸ ordered
    · exact h.memory t y present
  · rw [clock]
    rw [get?_sessions_written] at present
    split at present
    · exact Option.some.inj present ▸ behind
    · exact h.clock t y present
  · by_cases same : t = s
    · subst same
      cases kept : (l.written t x).kept? t with
      | none =>
        rw [keptChanges, kept]
        exact timeOrdered_nil
      | some d =>
        rcases kept?_written x kept with ⟨-, before⟩ | ⟨-, -, read⟩
        · have stored := h.stored t
          rw [keptChanges, before] at stored
          rw [keptChanges, kept]
          exact stored
        · rw [keptChanges, kept]
          exact ordered.congr (times_readBack read)
    · rw [keptChanges, kept?_written_of_ne x same]
      exact h.stored t

/-- What is done through a session without staging anything keeps the order of time. -/
theorem handles (moved : Handles m s l l') (h : l.Chronological) : l'.Chronological := by
  induction moved with
  | refl => exact h
  | load => exact h.load s
  | @thin l x y present _ fewer =>
    exact h.written ((h.memory s y present).sublist fewer)
      fun c hc => h.clock s y present c (fewer.subset hc)
  | @assign l y id key changes assigns present assigned =>
    refine h.written ((h.memory s y present).congr (times_withAssignedKey assigned)) fun c hc => ?_
    obtain ⟨b, hb, rfl | ⟨-, rfl⟩⟩ := withAssignedKey_renews assigned c hc
    · exact h.clock s y present c hb
    · exact h.clock s y present b hb
  | @mark l y frozen present =>
    refine ⟨fun t x found => ?_, fun t x found => ?_, h.stored⟩
    all_goals
      simp only [put, Dict.get?_insert] at found
      split at found
    · exact Option.some.inj found ▸ h.memory s y present
    · exact h.memory t x found
    · exact Option.some.inj found ▸ h.clock s y present
    · exact h.clock t x found
  | forget present vacant =>
    refine ⟨fun t x found => ?_, fun t x found => ?_, h.stored⟩
    all_goals
      simp only [Dict.get?_erase] at found
      split at found
      · cases found
    · exact h.memory t x found
    · exact h.clock t x found
  | trans _ _ ih ih' => exact ih' (ih h)

/-- An edit that is staged at the next reading of the clock joins or stays in the order of time. -/
theorem course (moved : Course m s l l') (h : l.Chronological) : l'.Chronological := by
  have loaded := h.load s
  cases moved with
  | still moved => exact h.handles moved
  | ticked _ reading => exact loaded.ticked (Nat.le_of_lt (Clock.rank_next? reading))
  | @staged edit id now stamp changes outcome _ records reading staged rest =>
    have ahead := Clock.rank_next? reading
    have present := l.get?_load s
    have later := loaded.laterThan ((edit.withRegisteredKey l.keyColumns).toChange id stamp) present
      ahead
    obtain ⟨new, time, -, renewed⟩ := stage_renews staged
    have ticked : Chronological { l.load s with clock := ⟨stamp⟩ } :=
      loaded.ticked (Nat.le_of_lt ahead)
    refine handles rest (ticked.written
      (stage_timeOrdered (loaded.memory s _ present) later rfl staged) fun c hc => ?_)
    rcases renewed c hc with old | rfl
    · exact Nat.le_trans (loaded.clock s _ present c old) (Nat.le_of_lt ahead)
    · rw [time]
      exact Nat.le_refl _

end Chronological

end Ledger

/-! ## Runs -/

namespace Engine

variable {e e' : Engine} {m : Move}

/-- The engines that moves lead to.  An edit may also be tried while the wall time cannot be had. -/
inductive Leads (e : Engine) : Engine → Prop
  | refl : Leads e e
  | move {e' : Engine} (m : Move) (before : Leads e e') : Leads e (e'.perform m)
  | untimed {e' : Engine} (s : SessionId) (edit : Edit) (before : Leads e e') :
      Leads e { e' with ledger := (e'.ledger.recordUntimed s edit).2 }

theorem leads_run (e : Engine) (moves : List Move) : e.Leads (e.run moves) := by
  induction moves using List.reverseRecOn with
  | nil => exact .refl
  | append_singleton past m ih =>
    rw [run_append]
    exact .move m ih

theorem perform_chronological (h : e.ledger.Chronological)
    (space : e.ledger.space = e.settings.storagePrefix) : (e.perform m).ledger.Chronological := by
  cases about : e.sessionOf? m with
  | some s => exact h.course (e.perform_course about)
  | none =>
    rcases e.perform_elsewhere about with ⟨keyColumns, eq⟩ | ⟨refusal, rfl⟩ | rfl
    · rw [eq]
      exact ⟨h.memory, h.clock, h.stored⟩
    · exact ⟨h.memory, h.clock, h.stored⟩
    · refine ⟨fun s x present => ?_, fun s x present => ?_, fun s => ?_⟩
      · simp [perform, reopened, Ledger.onStore] at present
      · simp [perform, reopened, Ledger.onStore] at present
      · have same : e.reopened.ledger.space = e.ledger.space := space.symm
        rw [perform, Ledger.keptChanges_congr same rfl s]
        exact h.stored s

theorem Leads.chronological (leads : e.Leads e') (h : e.ledger.Chronological)
    (space : e.ledger.space = e.settings.storagePrefix) :
    e'.ledger.Chronological ∧ e'.ledger.space = e'.settings.storagePrefix := by
  induction leads with
  | refl => exact ⟨h, space⟩
  | @move e₁ m _ ih =>
    obtain ⟨before, space⟩ := ih
    obtain ⟨settings, space'⟩ := (e₁.perform_turn m).space space
    exact ⟨perform_chronological before space, settings ▸ space'⟩
  | @untimed e₁ s edit _ ih =>
    obtain ⟨before, space⟩ := ih
    have spent : Ledger.Spent s e₁.ledger .activate (e₁.ledger.recordUntimed s edit).2 :=
      e₁.ledger.recordUntimed_spent s edit
    generalize (e₁.ledger.recordUntimed s edit).2 = l' at spent
    cases spent with
    | nothing => exact ⟨before, space⟩
    | loading => exact ⟨before.load s, (e₁.ledger.load_loaded s).space.trans space⟩

theorem opened_chronological {settings : Settings} {listing : Listing} {database : Database}
    (opened : Engine.opened settings (Store.empty listing) database = .ok e) :
    e.ledger.Chronological ∧ e.ledger.space = e.settings.storagePrefix := by
  obtain rfl := opened_eq opened
  refine ⟨⟨fun s x present => ?_, fun s x present => ?_, fun s => ?_⟩, rfl⟩
  · simp [Ledger.onStore] at present
  · simp [Ledger.onStore] at present
  · have none : (Ledger.onStore (Store.empty listing) settings.storagePrefix).keptChanges s = [] := by
      simp [Ledger.keptChanges, Ledger.kept?, Ledger.onStore, Store.empty]
    rw [none]
    exact timeOrdered_nil

/-- In every state that moves lead to from an empty store, however the wall time goes, the changes of
each session ascend in their first times, none was edited before it was there, and no two were edited
last at the same time.  A change that an edit becomes or goes into is later than all that the session
held. -/
theorem reached_timeOrdered {settings : Settings} {listing : Listing} {database : Database}
    (opened : Engine.opened settings (Store.empty listing) database = .ok e) (leads : e.Leads e') :
    (∀ s, TimeOrdered (e'.ledger.changes s)) ∧
      ∀ s edit id now outcome, (e'.ledger.record s edit id now).answer = .ok outcome →
        (∀ c ∈ (e'.ledger.record s edit id now).ledger.changes s,
            c ∈ e'.ledger.changes s ∨ c.LaterThan (e'.ledger.changes s)) ∧
          (outcome = .cancelled outcome.changeId ∨
            ∃ c ∈ (e'.ledger.record s edit id now).ledger.changes s,
              c.id = outcome.changeId ∧ c.LaterThan (e'.ledger.changes s)) := by
  obtain ⟨chronological, space⟩ := opened_chronological opened
  have there := (leads.chronological chronological space).1
  refine ⟨there.changes, fun s edit id now outcome answered => ?_⟩
  rcases e'.ledger.record_exact s edit id now with
    ⟨failure, l', eq, -⟩ | ⟨stamp, changes, outcome', -, -, -, reading, staged, eq⟩
  · rw [eq] at answered
    cases answered
  · rw [eq] at answered ⊢
    cases answered
    have later := (there.load s).laterThan
      ((edit.withRegisteredKey e'.ledger.keyColumns).toChange id stamp) (e'.ledger.get?_load s)
      (Clock.rank_next? reading)
    rw [Ledger.changes, Ledger.session_written, if_pos rfl]
    exact stage_laterThan later staged

end Engine

namespace Sample

open Engine

/-- Two rows are inserted while the wall time goes back, and then the first one is renamed. -/
def setback : List Move :=
  [.activate desk, .record desk (.insert items (item 1 "a") (some (key 1))) (id 1) 9,
    .record desk (.insert items (item 2 "b") (some (key 2))) (id 2) 4,
    .record desk (.update items (some (key 1)) Dict.empty (named "c")) (id 3) 9]

/-- The rows stay in the order in which they came, the last edit is the latest, and a further one at a
yet earlier wall time is later than all of them. -/
theorem reached_timeOrdered_setback :
    ((engine.run setback).ledger.changes desk).map Change.times =
        [(⟨9, 0⟩, ⟨9, 2⟩), (⟨9, 1⟩, ⟨9, 1⟩)] ∧
      TimeOrdered ((engine.run setback).ledger.changes desk) ∧
      ∃ c ∈ ((engine.run setback).ledger.record desk
          (.delete items (some (key 3)) (item 3 "d")) (id 4) 1).ledger.changes desk,
        c.id = id 4 ∧ c.LaterThan ((engine.run setback).ledger.changes desk) := by
  obtain ⟨ordered, renewed⟩ := reached_timeOrdered engine_opened (engine.leads_run setback)
  have recorded := renewed desk (.delete items (some (key 3)) (item 3 "d")) (id 4) 1
    (.appended (id 4)) rfl
  exact ⟨rfl, ordered desk, recorded.2.resolve_left (by simp)⟩

end Sample

end DraftLedger
