import DraftLedger.Json.Record

/-!
# Logical time

A stamp is a reading of a clock that never shows less than it has seen: wall time in milliseconds
and a counter that tells readings of one millisecond apart.

* `Stamp` : a reading, ordered by wall time and then by counter.
* `Clock.next?`, `Clock.tick?` : the next reading, unless the counter has come to its end.
* `Clock.observe` : moves the clock forward to a reading seen elsewhere.
-/

set_option autoImplicit false

namespace DraftLedger

/-- A reading of the clock. -/
structure Stamp where
  wall : UInt64
  counter : UInt32
deriving DecidableEq

namespace Stamp

/-- Wall time decides, then the counter. -/
def Before (a b : Stamp) : Prop := a.wall < b.wall ∨ (a.wall = b.wall ∧ a.counter < b.counter)

instance : LT Stamp := ⟨Before⟩

instance : DecidableLT Stamp := fun a b =>
  inferInstanceAs (Decidable (a.wall < b.wall ∨ (a.wall = b.wall ∧ a.counter < b.counter)))

theorem lt_iff {a b : Stamp} :
    a < b ↔ a.wall < b.wall ∨ (a.wall = b.wall ∧ a.counter < b.counter) := Iff.rfl

protected def compare (a b : Stamp) : Ordering :=
  if a < b then .lt else if b < a then .gt else .eq

/-- The earlier of two readings, the first one if they are the same. -/
def earlier (a b : Stamp) : Stamp := if b < a then b else a

def toJson (s : Stamp) : Json :=
  .object [("wall_ms", Json.ofNat s.wall.toNat), ("counter", Json.ofNat s.counter.toNat)]

def ofJson? (j : Json) : Option Stamp := do
  match ← j.fields? ["wall_ms", "counter"] with
  | [some wall, some counter] =>
    some ⟨UInt64.ofNat (← wall.word? UInt64.size), UInt32.ofNat (← counter.word? UInt32.size)⟩
  | _ => none

end Stamp

/-- A clock, given by the latest reading that it showed or saw. -/
structure Clock where
  latest : Stamp
deriving DecidableEq

namespace Clock

def start : Clock := ⟨⟨0, 0⟩⟩

/-- The next reading at wall time `now`: that time when it is later than all seen before, else the
latest time with the next counter. There is none after the last counter of that time. -/
def next? (c : Clock) (now : UInt64) : Option Stamp :=
  if c.latest.wall < now then some ⟨now, 0⟩
  else if c.latest.counter.toNat + 1 < UInt32.size then
    some ⟨c.latest.wall, c.latest.counter + 1⟩
  else none

/-- The next reading, and the clock that has shown it. -/
def tick? (c : Clock) (now : UInt64) : Option (Stamp × Clock) :=
  (c.next? now).map fun reading => (reading, ⟨reading⟩)

/-- Moves forward to a reading seen elsewhere, never back. -/
def observe (c : Clock) (seen : Stamp) : Clock := if c.latest < seen then ⟨seen⟩ else c

def observeAll (c : Clock) (seen : List Stamp) : Clock := seen.foldl observe c

end Clock

end DraftLedger
