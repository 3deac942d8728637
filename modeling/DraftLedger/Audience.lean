import DraftLedger.Ledger.Group
import DraftLedger.Ledger.Mutation

/-!
# Listeners

Listeners hear of every event in the order in which they subscribed.  A listener may do something
with the ledger when it hears of one, and what comes of that is heard by all listeners before the
next one hears of the event.

* `Listener`, `Audience` : who listens.
* `Delivery` : one event as one listener heard it.
* `Audience.announce` : an event is heard.
-/

set_option autoImplicit false

namespace DraftLedger

/-- What a listener does when it hears of an event. -/
inductive Reaction where
  /-- Nothing but noting it. -/
  | note
  /-- It looks at the numbers of changes by table. -/
  | count
  /-- When an edit was staged, it takes every change of the session out again. -/
  | clear
deriving DecidableEq

/-- A listener. -/
structure Listener where
  id : Nat
  /-- The session that it cares about, if it is one alone. -/
  only : Option SessionId
  reaction : Reaction

/-- One event as one listener heard it. -/
structure Delivery where
  listener : Nat
  event : Event
  /-- The numbers of changes by table that the listener saw, if it looked. -/
  totals : Option (List Nat)

/-- Who listens, and what has been heard. -/
structure Audience where
  /-- In the order of subscription. -/
  listeners : List Listener
  /-- The identifier of the next listener. -/
  next : Nat
  heard : List Delivery

namespace Audience

def empty : Audience := ⟨[], 0, []⟩

def subscribe (a : Audience) (only : Option SessionId) (reaction : Reaction) : Audience :=
  { a with listeners := a.listeners ++ [⟨a.next, only, reaction⟩], next := a.next + 1 }

def unsubscribe (a : Audience) (id : Nat) : Audience :=
  { a with listeners := a.listeners.filter fun l => l.id ≠ id }

def cares (listener : Listener) (event : Event) : Bool :=
  match listener.only with
  | some s => event.session = s
  | none => true

def note (event : Event) (state : Ledger × Audience) (listener : Listener) : Ledger × Audience :=
  let (ledger, a) := state
  if cares listener event then
    match listener.reaction with
    | .count =>
      let totals := (ledger.grouped event.session).map Group.total
      (ledger.visit event.session,
        { a with heard := a.heard ++ [⟨listener.id, event, some totals⟩] })
    | _ => (ledger, { a with heard := a.heard ++ [⟨listener.id, event, none⟩] })
  else state

def noteAll (event : Event) (state : Ledger × Audience) : Ledger × Audience :=
  state.2.listeners.foldl (note event) state

/-- One listener notes an event and does what it does. -/
def hear (event : Event) (state : Ledger × Audience) (listener : Listener) : Ledger × Audience :=
  let (ledger, a) := note event state listener
  match listener.reaction, event.kind with
  | .clear, .recorded _ =>
    if cares listener event then
      let step := ledger.clearAll event.session
      match step.event with
      | some cleared => noteAll cleared (step.ledger, a)
      | none => (step.ledger, a)
    else (ledger, a)
  | _, _ => (ledger, a)

def announce (event : Event) (state : Ledger × Audience) : Ledger × Audience :=
  state.2.listeners.foldl (hear event) state

end Audience

end DraftLedger
