import DraftLedger.Proofs.Clocks
import DraftLedger.Proofs.Course

/-!
# Operations that fail

An operation on a session that fails, for whatever reason, leaves all sessions and their documents as
they were, and nobody hears of it.  What it may have cost is that its session was loaded, and a reading
of the clock.  A session that was loaded while the store did not answer has nothing in it, and stays so
when the store answers again.

* `Engine.Operation`, `Engine.operate` : the operations on a session, and how they end.
* `Ledger.Spent` : what a failure may cost.
* `Engine.operate_failed` : a failed operation changes no session and no document.
-/

set_option autoImplicit false

namespace DraftLedger

namespace Engine

/-- A mutation of a session that is asked for. -/
inductive Operation where
  | activate
  | deactivate (discard : Bool)
  /-- The wall time is missing if it cannot be had. -/
  | record (edit : Edit) (id : ChangeId) (now : Option UInt64)
  | remove (id : ChangeId)
  | clearAll
  | clearTable (table : Table)
  | assignPrimaryKey (id : ChangeId) (key : Row)

/-- How a mutation ends, and the engine after it. -/
def ending {ε α : Type} (e : Engine) (cause : ε → Ledger.Failure)
    (mutation : Ledger → Ledger.Step ε α) : Option Ledger.Failure × Engine :=
  match e.mutate mutation with
  | (.ok _, e) => (none, e)
  | (.error failure, e) => (some (cause failure), e)

/-- How an operation on a session ends, and the engine after it. -/
def operate (e : Engine) (s : SessionId) : Operation → Option Ledger.Failure × Engine
  | .activate => e.ending .refused fun l => l.activate s
  | .deactivate discard => e.ending .refused fun l => l.deactivate s discard
  | .record edit id (some now) => e.ending (fun failure => failure) fun l => l.record s edit id now
  | .record edit _ none =>
    let (failure, ledger) := e.ledger.recordUntimed s edit
    (some failure, { e with ledger })
  | .remove id => e.ending .refused fun l => l.remove s id
  | .clearAll => e.ending .refused fun l => l.clearAll s
  | .clearTable table => e.ending .refused fun l => l.clearTable s table
  | .assignPrimaryKey id key => e.ending .refused fun l => l.assignPrimaryKey s id key

/-- The operation as a move, unless it is an edit without a wall time. -/
def Operation.move? (s : SessionId) : Operation → Option Move
  | .activate => some (.activate s)
  | .deactivate discard => some (.deactivate s discard)
  | .record edit id now => now.map (.record s edit id)
  | .remove id => some (.remove s id)
  | .clearAll => some (.clearAll s)
  | .clearTable table => some (.clearTable s table)
  | .assignPrimaryKey id key => some (.assignPrimaryKey s id key)

theorem ending_engine {ε α : Type} (e : Engine) (cause : ε → Ledger.Failure)
    (mutation : Ledger → Ledger.Step ε α) : (e.ending cause mutation).2 = (e.mutate mutation).2 := by
  unfold ending
  split
  · next eq => rw [eq]
  · next eq => rw [eq]

theorem operate_move {e : Engine} {s : SessionId} {op : Operation} {m : Move}
    (move : op.move? s = some m) : (e.operate s op).2 = e.perform m := by
  cases op with
  | record edit id now =>
    cases now with
    | none => cases move
    | some now =>
      cases move
      exact e.ending_engine _ _
  | _ =>
    cases move
    exact e.ending_engine _ _

end Engine

open Engine

/-! ## What a failure costs -/

/-- What an operation on a session that fails may cost: nothing, loading the session, or also a reading
of the clock. -/
inductive Ledger.Spent (s : SessionId) (l : Ledger) : Operation → Ledger → Prop
  | nothing (op : Operation) : Spent s l op l
  | loading (op : Operation) : Spent s l op (l.load s)
  | reading (edit : Edit) (id : ChangeId) {now : UInt64} {stamp : Stamp}
      (shown : (l.load s).clock.next? now = some stamp) :
      Spent s l (.record edit id (some now)) { l.load s with clock := ⟨stamp⟩ }

namespace Ledger

variable {l l' : Ledger} {s : SessionId} {op : Operation}

theorem Spent.loaded (h : Spent s l op l') : l.Loaded l' := by
  cases h with
  | nothing => exact .refl l
  | loading => exact l.load_loaded s
  | reading => exact (l.load_loaded s).trans (withClock_loaded _ _)

theorem Spent.clock (h : Spent s l op l') : l.clock.rank ≤ l'.clock.rank := by
  have ahead := (l.rank_load s).1
  cases h with
  | nothing => exact Nat.le_refl _
  | loading => exact ahead
  | reading _ _ shown => exact Nat.le_trans ahead (Nat.le_of_lt (Clock.rank_next? shown))

theorem replacing_failed {α : Type} {replacement : Session → Except Error (Session × α)}
    {kind : α → EventKind} {refusal : Error}
    (failed : (l.replacing s replacement kind).answer = .error refusal) :
    l.replacing s replacement kind = (l.load s).refused refusal := by
  rcases l.replacing_cases s replacement kind with ⟨e, eq⟩ | ⟨x, answer, -, -, eq⟩
  · rw [eq] at failed ⊢
    cases failed
    rfl
  · rw [eq] at failed
    cases failed

theorem assignPrimaryKey_failed {id : ChangeId} {key : Row} {refusal : Error}
    (failed : (l.assignPrimaryKey s id key).answer = .error refusal) :
    ∃ l', Spent s l op l' ∧ l.assignPrimaryKey s id key = l'.refused refusal := by
  unfold assignPrimaryKey at failed ⊢
  split at failed
  · next empty =>
    cases failed
    exact ⟨l, .nothing _, by rw [if_pos empty]⟩
  · next nonempty => exact ⟨_, .loading _, by rw [if_neg nonempty, replacing_failed failed]⟩

theorem record_failed {edit : Edit} {id : ChangeId} {now : UInt64} {failure : Failure}
    (failed : (l.record s edit id now).answer = .error failure) :
    ∃ l', Spent s l (.record edit id (some now)) l' ∧
      l.record s edit id now = l'.refused failure := by
  rcases l.record_exact s edit id now with
    ⟨_, l', eq, cost⟩ | ⟨stamp, changes, outcome, -, -, -, -, -, eq⟩
  · rw [eq] at failed
    cases failed
    rcases cost with rfl | rfl | ⟨stamp, shown, rfl⟩
    · exact ⟨_, .nothing _, eq⟩
    · exact ⟨_, .loading _, eq⟩
    · exact ⟨_, .reading edit id shown, eq⟩
  · rw [eq] at failed
    cases failed

theorem recordUntimed_spent (l : Ledger) (s : SessionId) (edit : Edit) :
    Spent s l op (l.recordUntimed s edit).2 := by
  unfold recordUntimed
  split
  · exact .nothing _
  · simp only
    split
    · exact .loading _
    · split <;> exact .loading _

end Ledger

namespace Engine

variable {e e' : Engine} {s : SessionId} {op : Operation} {failure : Ledger.Failure}

theorem ending_failed {ε α : Type} {cause : ε → Ledger.Failure}
    {mutation : Ledger → Ledger.Step ε α}
    (spent : ∀ refusal, (mutation e.ledger).answer = .error refusal →
      ∃ l', Ledger.Spent s e.ledger op l' ∧ mutation e.ledger = l'.refused refusal)
    (failed : e.ending cause mutation = (some failure, e')) :
    ∃ l', Ledger.Spent s e.ledger op l' ∧ e' = { e with ledger := l' } := by
  unfold ending mutate at failed
  simp only at failed
  split at failed
  · cases failed
  · next refusal _ mutated =>
    cases failed
    obtain ⟨answer, rfl⟩ := Prod.mk.inj mutated
    obtain ⟨l', cost, eq⟩ := spent refusal answer
    rw [eq]
    exact ⟨l', cost, rfl⟩

/-- What a failed operation may cost is all that it does. -/
theorem operate_spent (failed : e.operate s op = (some failure, e')) :
    ∃ l', Ledger.Spent s e.ledger op l' ∧ e' = { e with ledger := l' } := by
  have replacing {α : Type} (replacement : Session → Except Error (Session × α))
      (kind : α → EventKind)
      (failed : e.ending .refused (fun l => l.replacing s replacement kind) = (some failure, e')) :
      ∃ l', Ledger.Spent s e.ledger op l' ∧ e' = { e with ledger := l' } :=
    ending_failed (fun refusal failed => ⟨_, .loading _, Ledger.replacing_failed failed⟩) failed
  cases op with
  | activate => exact replacing _ _ failed
  | deactivate discard => exact replacing _ _ failed
  | record edit id now =>
    cases now with
    | some now => exact ending_failed (fun refusal failed => Ledger.record_failed failed) failed
    | none =>
      cases failed
      exact ⟨_, e.ledger.recordUntimed_spent s edit, rfl⟩
  | remove id => exact replacing _ _ failed
  | clearAll => exact replacing _ _ failed
  | clearTable table => exact replacing _ _ failed
  | assignPrimaryKey id key =>
    exact ending_failed (fun refusal failed => Ledger.assignPrimaryKey_failed failed) failed

/-- After an operation on a session that fails every session is active or not as before, held or not as
before, and has the same changes; the store and the registered key columns are the same; no listener has
heard of anything; the clock has not gone back.  What may be otherwise is that the session is in memory:
if the store did not answer, with nothing in it, so that its document is not looked at later either. -/
theorem operate_failed (failed : e.operate s op = (some failure, e')) :
    (∀ t, e'.ledger.isActive t = e.ledger.isActive t ∧ e'.ledger.changes t = e.ledger.changes t ∧
        e'.ledger.isFrozen t = e.ledger.isFrozen t) ∧
      e'.ledger.store = e.ledger.store ∧ e'.ledger.space = e.ledger.space ∧
      e'.ledger.keyColumns = e.ledger.keyColumns ∧
      e'.audience = e.audience ∧ e' = { e with ledger := e'.ledger } ∧
      e.ledger.clock.rank ≤ e'.ledger.clock.rank := by
  obtain ⟨l', spent, rfl⟩ := operate_spent failed
  have loaded := spent.loaded
  refine ⟨fun t => ?_, loaded.store, loaded.space, loaded.keyColumns, rfl, rfl, spent.clock⟩
  simp only [Ledger.isActive, Ledger.changes, Ledger.isFrozen, loaded.session t, and_self]

end Engine

namespace Sample

open Engine

/-- A row is to be deleted. -/
def deletion : Engine :=
  ((engine.perform (.activate desk)).perform
    (.record desk (.delete items (some (key 1)) (item 1 "a")) (id 1) 5))

/-- Renaming the row is refused after a reading of the clock, and the deletion stays. -/
theorem operate_failed_deletion :
    ∃ refusal e', deletion.operate desk
        (.record (.update items (some (key 1)) (item 1 "a") (named "b")) (id 2) (some 6)) =
      (some (.refused refusal), e') ∧ e'.ledger.clock ≠ deletion.ledger.clock ∧
      e'.ledger.changes desk = deletion.ledger.changes desk ∧
      e'.ledger.store = deletion.ledger.store := by
  have failed : deletion.operate desk
      (.record (.update items (some (key 1)) (item 1 "a") (named "b")) (id 2) (some 6)) =
      (some (.refused (.conflict items .stagedForDeletion)), _) := rfl
  obtain ⟨sessions, store, -⟩ := operate_failed failed
  exact ⟨_, _, failed, by decide, (sessions desk).2.1, store⟩

end Sample

end DraftLedger
