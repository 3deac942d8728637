import DraftLedger.Proofs.Kept

/-!
# The order of readings

A reading counts for a number, so that readings are compared as numbers are.  A clock never falls
behind a reading that it showed or saw.

* `Stamp.rank` : the number of a reading.
* `Clock.HasNext` : the clock has a further reading.
* `Clock.rank_next?`, `Clock.rank_observeAll` : what moves a clock forward.
* `Ledger.rank_load` : loading a session moves the clock past its changes.
-/

set_option autoImplicit false

namespace DraftLedger

namespace Stamp

variable {a b : Stamp}

/-- The number of a reading: its wall time, then its counter as 32 further bits. -/
def rank (a : Stamp) : Nat := a.wall.toNat * 4294967296 + a.counter.toNat

theorem lt_iff_rank : a < b ↔ a.rank < b.rank := by
  have ha := a.counter.toNat_lt
  have hb := b.counter.toNat_lt
  rw [lt_iff, UInt64.lt_iff_toNat_lt, UInt32.lt_iff_toNat_lt, ← UInt64.toNat_inj]
  unfold rank
  omega

theorem rank_injective (h : a.rank = b.rank) : a = b := by
  have ha := a.counter.toNat_lt
  have hb := b.counter.toNat_lt
  unfold rank at h
  have wall : a.wall = b.wall := UInt64.toNat_inj.1 (by omega)
  have counter : a.counter = b.counter := UInt32.toNat_inj.1 (by omega)
  obtain ⟨_, _⟩ := a
  obtain ⟨_, _⟩ := b
  cases wall
  cases counter
  rfl

end Stamp

namespace Clock

variable {c : Clock} {now : UInt64}

/-- The number of the latest reading. -/
def rank (c : Clock) : Nat := c.latest.rank

/-- The clock has a further reading at wall time `now`. -/
def HasNext (c : Clock) (now : UInt64) : Prop :=
  c.latest.wall < now ∨ c.latest.counter.toNat + 1 < UInt32.size

instance (c : Clock) (now : UInt64) : Decidable (c.HasNext now) :=
  inferInstanceAs (Decidable (_ ∨ _))

theorem hasNext_iff : c.HasNext now ↔ ∃ reading, c.next? now = some reading := by
  unfold HasNext next?
  split
  · next later => exact iff_of_true (.inl later) ⟨_, rfl⟩
  · next stalled =>
    split
    · next room => exact iff_of_true (.inr room) ⟨_, rfl⟩
    · next full => exact iff_of_false (fun either => either.elim stalled full) nofun

theorem next?_eq_none_iff : c.next? now = none ↔ ¬ c.HasNext now := by
  rw [hasNext_iff, Option.eq_none_iff_forall_ne_some, not_exists]

/-- The next reading is later than all before. -/
theorem rank_next? {reading : Stamp} (next : c.next? now = some reading) : c.rank < reading.rank := by
  have counter := c.latest.counter.toNat_lt
  unfold next? at next
  split at next
  · next later =>
    cases next
    rw [UInt64.lt_iff_toNat_lt] at later
    simp only [rank, Stamp.rank, UInt32.toNat_zero]
    omega
  split at next
  · next stalled room =>
    cases next
    have sum : (c.latest.counter + 1).toNat = c.latest.counter.toNat + 1 := by
      rw [UInt32.toNat_add]
      exact Nat.mod_eq_of_lt room
    simp only [rank, Stamp.rank, sum]
    omega
  · cases next

theorem counter_next? {reading : Stamp} (next : c.next? now = some reading) :
    reading.counter.toNat ≤ c.latest.counter.toNat + 1 := by
  unfold next? at next
  split at next
  · cases next
    exact Nat.zero_le _
  split at next
  · cases next
    rw [UInt32.toNat_add]
    exact Nat.mod_le _ _
  · cases next

theorem rank_observe (c : Clock) (seen : Stamp) :
    c.rank ≤ (c.observe seen).rank ∧ seen.rank ≤ (c.observe seen).rank := by
  unfold observe
  split
  · next behind =>
    rw [Stamp.lt_iff_rank] at behind
    exact ⟨Nat.le_of_lt behind, Nat.le_refl _⟩
  · next ahead =>
    rw [Stamp.lt_iff_rank, Nat.not_lt] at ahead
    exact ⟨Nat.le_refl _, ahead⟩

/-- A clock is not behind where it was, nor behind what it has seen. -/
theorem rank_observeAll (c : Clock) (seen : List Stamp) :
    c.rank ≤ (c.observeAll seen).rank ∧ ∀ a ∈ seen, a.rank ≤ (c.observeAll seen).rank := by
  unfold observeAll
  induction seen generalizing c with
  | nil => exact ⟨Nat.le_refl _, fun a ha => absurd ha List.not_mem_nil⟩
  | cons a rest ih =>
    obtain ⟨before, first⟩ := c.rank_observe a
    obtain ⟨ahead, others⟩ := ih (c.observe a)
    refine ⟨Nat.le_trans before ahead, fun b hb => ?_⟩
    rcases List.mem_cons.1 hb with rfl | hb
    · exact Nat.le_trans first ahead
    · exact others b hb

end Clock

namespace Ledger

/-- Loading a session moves the clock past its changes, and never back. -/
theorem rank_load (l : Ledger) (s : SessionId) :
    l.clock.rank ≤ (l.load s).clock.rank ∧
      (l.sessions.get? s = none →
        ∀ c ∈ l.changes s, c.updatedAt.rank ≤ (l.load s).clock.rank) := by
  unfold load changes session
  cases l.sessions.get? s with
  | some x => exact ⟨Nat.le_refl _, nofun⟩
  | none =>
    obtain ⟨ahead, past⟩ :=
      l.clock.rank_observeAll ((l.recovered s).changes.map (·.updatedAt))
    exact ⟨ahead, fun _ c hc => past _ (List.mem_map_of_mem hc)⟩

end Ledger

end DraftLedger
