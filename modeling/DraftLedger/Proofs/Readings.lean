import DraftLedger.Proofs.Clocks
import DraftLedger.Proofs.Sample
import Mathlib.Data.List.Induction

/-!
# What a clock shows

A clock sees readings from elsewhere and shows readings of its own, in any order and at any wall times.
What it shows is later than all that it saw or showed before; but it shows nothing once it is at the last
counter of a time that the wall time has not passed.

* `Clock.Act`, `Clock.after`, `Clock.readings` : what is done with a clock, and what comes of it.
* `Clock.Ascends` : every tick shows a reading, which is later than all before it.
* `Clock.le_after` : a clock is not behind a reading.
* `Clock.ascends_iff` : when a clock ascends.
-/

set_option autoImplicit false

namespace DraftLedger

namespace Clock

inductive Act where
  /-- It sees a reading from elsewhere. -/
  | observe (seen : Stamp)
  /-- It is to show its next reading at this wall time. -/
  | tick (now : UInt64)

def Act.isTick : Act → Bool
  | .observe _ => false
  | .tick _ => true

/-- The reading that is seen or shown. -/
def reading? (c : Clock) : Act → Option Stamp
  | .observe seen => some seen
  | .tick now => (c.tick? now).map Prod.fst

/-- The clock afterwards, which is the same one if it showed nothing. -/
def act (c : Clock) : Act → Clock
  | .observe seen => c.observe seen
  | .tick now => ((c.tick? now).map Prod.snd).getD c

def after (c : Clock) (acts : List Act) : Clock := acts.foldl act c

/-- The readings that the clock saw and showed, in their order. -/
def readings (c : Clock) : List Act → List Stamp
  | [] => []
  | a :: rest => (c.reading? a).toList ++ (c.act a).readings rest

/-- Something is so at every tick, of what was done before it and its wall time. -/
def AtTicks (acts : List Act) (p : List Act → UInt64 → Prop) : Prop :=
  ∀ past now rest, acts = past ++ .tick now :: rest → p past now

/-- Every tick shows a reading that is later than all that the clock saw or showed before. -/
def Ascends (c : Clock) (acts : List Act) : Prop :=
  AtTicks acts fun past now =>
    ∃ shown, (c.after past).reading? (.tick now) = some shown ∧ ∀ r ∈ c.readings past, r < shown

variable {c : Clock} {acts past : List Act} {now : UInt64} {shown : Stamp}

/-! ## One more act -/

theorem reading?_tick (c : Clock) (now : UInt64) : c.reading? (.tick now) = c.next? now := by
  cases next : c.next? now <;> simp [reading?, tick?, next]

theorem act_tick_of_next? (next : c.next? now = some shown) : c.act (.tick now) = ⟨shown⟩ := by
  simp [act, tick?, next]

theorem act_tick_of_spent (spent : c.next? now = none) : c.act (.tick now) = c := by
  simp [act, tick?, spent]

theorem after_concat (c : Clock) (acts : List Act) (a : Act) :
    c.after (acts ++ [a]) = (c.after acts).act a := by
  simp [after]

theorem readings_concat (c : Clock) (acts : List Act) (a : Act) :
    c.readings (acts ++ [a]) = c.readings acts ++ ((c.after acts).reading? a).toList := by
  induction acts generalizing c with
  | nil => simp [readings, after]
  | cons first rest ih =>
    rw [List.cons_append, readings, ih, readings, List.append_assoc]
    rfl

/-! ## What has been shown -/

/-- A clock is not behind a reading that it saw or showed. -/
theorem le_after (c : Clock) (acts : List Act) :
    ∀ r ∈ c.readings acts, r.rank ≤ (c.after acts).rank := by
  induction acts using List.reverseRecOn with
  | nil => exact fun r mem => absurd mem List.not_mem_nil
  | append_singleton acts a ih =>
    rw [after_concat, readings_concat]
    intro r mem
    cases a with
    | observe seen =>
      obtain ⟨before, same⟩ := (c.after acts).rank_observe seen
      rcases List.mem_append.1 mem with old | new
      · exact Nat.le_trans (ih r old) before
      · rw [List.mem_singleton.1 new]
        exact same
    | tick now =>
      rw [reading?_tick] at mem
      cases next : (c.after acts).next? now with
      | none =>
        rw [act_tick_of_spent next]
        rw [next, Option.toList_none, List.append_nil] at mem
        exact ih r mem
      | some shown =>
        rw [act_tick_of_next? next]
        rw [next] at mem
        rcases List.mem_append.1 mem with old | new
        · exact Nat.le_of_lt (Nat.lt_of_le_of_lt (ih r old) (rank_next? next))
        · rw [List.mem_singleton.1 new]
          exact Nat.le_refl _

theorem later_of_shown (next : (c.after past).next? now = some shown) :
    ∀ r ∈ c.readings past, r < shown := by
  intro r mem
  rw [Stamp.lt_iff_rank]
  exact Nat.lt_of_le_of_lt (c.le_after past r mem) (rank_next? next)

/-! ## Ascending -/

theorem ascends_iff_hasNext :
    c.Ascends acts ↔ AtTicks acts fun past now => (c.after past).HasNext now := by
  unfold Ascends AtTicks
  refine forall₄_congr fun past now rest _ => ?_
  simp only [reading?_tick, hasNext_iff]
  exact exists_congr fun shown => and_iff_left_of_imp later_of_shown

theorem counter_after {n : Nat} (first : c.latest.counter.toNat ≤ n)
    (seen : ∀ r, .observe r ∈ acts → r.counter.toNat ≤ n) :
    (c.after acts).latest.counter.toNat ≤ n + acts.countP Act.isTick := by
  induction acts using List.reverseRecOn with
  | nil => exact first
  | append_singleton acts a ih =>
    have fewer := ih fun r mem => seen r (List.mem_append_left _ mem)
    rw [after_concat, List.countP_append, List.countP_singleton]
    cases a with
    | observe r =>
      simp only [act, observe, Act.isTick]
      split
      · exact Nat.le_trans (seen r (by simp)) (Nat.le_add_right _ _)
      · exact fewer
    | tick now =>
      simp only [Act.isTick, if_true]
      cases next : (c.after acts).next? now with
      | none =>
        rw [act_tick_of_spent next]
        omega
      | some shown =>
        rw [act_tick_of_next? next]
        exact Nat.le_trans (counter_next? next) (by omega)

/-- What a clock shows is later than all that it saw or showed before, whatever it sees and however the
wall time goes.  Every tick shows a reading if and only if at each the wall time is later than the latest
reading or that has not the last counter; so it is if the counters that it sees leave room for the
ticks. -/
theorem ascends_iff (c : Clock) (acts : List Act) :
    (AtTicks acts fun past now => ∀ shown, (c.after past).reading? (.tick now) = some shown →
      ∀ r ∈ c.readings past, r < shown) ∧
    (c.Ascends acts ↔ AtTicks acts fun past now => (c.after past).HasNext now) ∧
    ∀ n, c.latest.counter.toNat ≤ n → (∀ r, .observe r ∈ acts → r.counter.toNat ≤ n) →
      n + acts.countP Act.isTick < UInt32.size → c.Ascends acts := by
  refine ⟨fun past now rest split shown next => later_of_shown (reading?_tick _ _ ▸ next),
    ascends_iff_hasNext, fun n first seen few => ?_⟩
  refine ascends_iff_hasNext.2 fun past now rest split => .inr ?_
  subst split
  have counter : (c.after past).latest.counter.toNat ≤ n + past.countP Act.isTick :=
    counter_after first fun r mem => seen r (List.mem_append_left _ mem)
  rw [List.countP_append, List.countP_cons_of_pos rfl] at few
  omega

end Clock

namespace Sample

open Clock

/-- The wall time stands still, goes back and jumps ahead, and a reading from the future comes between. -/
def unsteady : List Act :=
  [.tick 5, .tick 5, .observe ⟨8, 4000000000⟩, .tick 3, .tick 0, .observe ⟨7, 9⟩, .tick 20]

theorem ascends_iff_unsteady :
    start.readings unsteady = [⟨5, 0⟩, ⟨5, 1⟩, ⟨8, 4000000000⟩, ⟨8, 4000000001⟩, ⟨8, 4000000002⟩,
      ⟨7, 9⟩, ⟨20, 0⟩] ∧ start.Ascends unsteady := by
  refine ⟨rfl, (ascends_iff start unsteady).2.2 4000000000 (Nat.zero_le _) ?_ (by decide)⟩
  simp [unsteady]

/-- A clock that has seen the last counter of a millisecond shows nothing until that is over. -/
theorem lastCounter_not_ascends :
    ¬ start.Ascends [.observe ⟨9000000000000, 4294967295⟩, .tick 0] ∧
      (start.after [.observe ⟨9000000000000, 4294967295⟩]).tick? 0 = none := by
  refine ⟨fun ascends => ?_, rfl⟩
  obtain ⟨shown, next, -⟩ := ascends [.observe ⟨9000000000000, 4294967295⟩] 0 [] rfl
  cases next

end Sample

end DraftLedger
