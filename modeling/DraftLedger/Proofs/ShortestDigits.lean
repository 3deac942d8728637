import DraftLedger.Binary64.Shortest
import Mathlib.Algebra.Order.Field.Power
import Mathlib.Data.Rat.Floor
import Mathlib.Tactic.Linarith
import Mathlib.Tactic.NormNum
import Mathlib.Tactic.Positivity
import Mathlib.Tactic.Ring

/-!
# The fewest digits tell finite numbers apart

The intervals of reals that round to the finite numbers stand side by side and share their ends, and an
end belongs to the one of its two numbers whose word is even.  The digits of a number give a point of
its interval, since a decimal grid with seventeen digits is finer than every interval is wide.

* `Binary64.boundary` : the ends of the intervals.
* `Binary64.Interval.Contains` : the points of an interval.
* `Binary64.eq_of_contains` : no point belongs to the intervals of two magnitudes.
* `Binary64.shortest_contains` : the digits of a number lie in its interval.
-/

set_option autoImplicit false

namespace DraftLedger.Binary64

/-! ## The ends of the intervals -/

/-- The significand of the finite number with this magnitude. -/
def significandAt (k : Nat) : Nat := if k < leastNormal then k else leastNormal + k % leastNormal

/-- The power of two of the finite number with this magnitude. -/
def scaleAt (k : Nat) : Int := if k < leastNormal then -1074 else (k / leastNormal : Nat) - 1075

/-- How far the lower end of an interval is from the middle, in quarters of the unit.  Just above a
power of two the neighbour below is nearer than the one above. -/
def gapAt (k : Nat) : Nat := if significandAt k = leastNormal ∧ scaleAt k ≠ -1074 then 1 else 2

/-- The lower end of the interval of a magnitude. -/
def boundary (k : Nat) : ℚ := (4 * significandAt k - gapAt k) / 4 * (2 : ℚ) ^ scaleAt k

theorem two_zpow_pos (s : Int) : (0 : ℚ) < (2 : ℚ) ^ s := zpow_pos (by norm_num) s

theorem at_subnormal {k : Nat} (h : k < leastNormal) : significandAt k = k ∧ scaleAt k = -1074 :=
  ⟨if_pos h, if_pos h⟩

theorem at_normal {k : Nat} (h : ¬ k < leastNormal) :
    significandAt k = leastNormal + k % leastNormal ∧ scaleAt k = (k / leastNormal : Nat) - 1075 :=
  ⟨if_neg h, if_neg h⟩

/-- From one magnitude to the next the significand grows by one, and after the last one of a scale it
starts anew at the next scale. -/
theorem next_at (k : Nat) :
    (significandAt (k + 1) = significandAt k + 1 ∧ scaleAt (k + 1) = scaleAt k ∧
        gapAt (k + 1) = 2) ∨
      (significandAt (k + 1) = leastNormal ∧ significandAt k + 1 = 2 * leastNormal ∧
        scaleAt (k + 1) = scaleAt k + 1 ∧ gapAt (k + 1) = 1) := by
  have unit : leastNormal = 0x10000000000000 := rfl
  by_cases below : k + 1 < leastNormal
  · obtain ⟨significand, scale⟩ := at_subnormal (by omega : k < leastNormal)
    obtain ⟨significand', scale'⟩ := at_subnormal below
    exact .inl ⟨by omega, by omega, if_neg (by omega)⟩
  obtain ⟨significand', scale'⟩ := at_normal below
  rw [unit] at significand' scale' below ⊢
  by_cases least : k < leastNormal
  · obtain ⟨significand, scale⟩ := at_subnormal least
    exact .inl ⟨by omega, by omega, if_neg (by omega)⟩
  obtain ⟨significand, scale⟩ := at_normal least
  rw [unit] at significand scale least
  by_cases last : (k + 1) % 0x10000000000000 = 0
  · exact .inr ⟨by omega, by omega, by omega, if_pos (by omega)⟩
  · exact .inl ⟨by omega, by omega, if_neg (by omega)⟩

theorem boundary_succ (k : Nat) :
    boundary (k + 1) = (4 * significandAt k + 2) / 4 * (2 : ℚ) ^ scaleAt k := by
  rw [boundary]
  rcases next_at k with ⟨significand, scale, gap⟩ | ⟨significand, last, scale, gap⟩
  · rw [significand, scale, gap]
    push_cast
    ring
  · have last' : (significandAt k : ℚ) = 2 * leastNormal - 1 := by
      have cast : ((significandAt k + 1 : Nat) : ℚ) = (2 * leastNormal : Nat) := by rw [last]
      push_cast at cast
      linarith
    rw [significand, scale, gap, last', zpow_add_one₀ (by norm_num)]
    push_cast
    ring

theorem boundary_lt_succ (k : Nat) : boundary k < boundary (k + 1) := by
  have gap : (1 : ℚ) ≤ gapAt k := by
    have positive : 1 ≤ gapAt k := by unfold gapAt; split <;> decide
    exact_mod_cast positive
  have unit := two_zpow_pos (scaleAt k)
  rw [boundary_succ, boundary]
  exact mul_lt_mul_of_pos_right (by linarith) unit

theorem boundary_strictMono : StrictMono boundary := strictMono_nat_of_lt_succ boundary_lt_succ

/-! ## Points of an interval -/

namespace Interval

/-- A point lies between the ends of an interval, or is one of them when it is closed. -/
def Contains (i : Interval) (r : ℚ) : Prop :=
  if i.closed then (i.low : ℚ) / i.den ≤ r ∧ r ≤ (i.high : ℚ) / i.den
  else (i.low : ℚ) / i.den < r ∧ r < (i.high : ℚ) / i.den

variable {i : Interval}

theorem contains_of_lt {r : ℚ} (low : (i.low : ℚ) / i.den < r) (high : r < (i.high : ℚ) / i.den) :
    i.Contains r := by
  unfold Contains
  split
  · exact ⟨low.le, high.le⟩
  · exact ⟨low, high⟩

theorem Contains.le {r : ℚ} (h : i.Contains r) :
    (i.low : ℚ) / i.den ≤ r ∧ r ≤ (i.high : ℚ) / i.den := by
  unfold Contains at h
  split at h
  · exact h
  · exact ⟨h.1.le, h.2.le⟩

theorem Contains.closed {r : ℚ} (h : i.Contains r)
    (edge : r = (i.low : ℚ) / i.den ∨ r = (i.high : ℚ) / i.den) : i.closed = true := by
  unfold Contains at h
  split at h
  · assumption
  · rcases edge with rfl | rfl
    · exact absurd h.1 (lt_irrefl _)
    · exact absurd h.2 (lt_irrefl _)

theorem ten_zpow_pos (e : Int) : (0 : ℚ) < (10 : ℚ) ^ e := zpow_pos (by norm_num) e

theorem ten_zpow_of_nonneg {e : Int} (h : 0 ≤ e) :
    (10 : ℚ) ^ e = (Nat.pow 10 e.toNat : Nat) := by
  obtain ⟨n, rfl⟩ := Int.eq_ofNat_of_zero_le h
  simp

theorem ten_zpow_of_neg {e : Int} (h : ¬ 0 ≤ e) :
    (10 : ℚ) ^ e = ((Nat.pow 10 (-e).toNat : Nat) : ℚ)⁻¹ := by
  obtain ⟨n, eq⟩ := Int.eq_ofNat_of_zero_le (by omega : 0 ≤ -e)
  obtain rfl : e = -(n : Int) := by omega
  simp

/-- Comparing a point with an end is comparing whole numbers when the point is one over the denominator
of the interval and a further one. -/
theorem compare_iff {den a b : Nat} {r : ℚ} (positive : 0 < den) (further : 0 < b)
    (eq : r * (b * den) = a) (z : Nat) :
    ((z : ℚ) / den ≤ r ↔ z * b ≤ a) ∧ (r ≤ (z : ℚ) / den ↔ a ≤ z * b) := by
  have den' : (0 : ℚ) < den := by exact_mod_cast positive
  have both : (0 : ℚ) < b * den := mul_pos (by exact_mod_cast further) den'
  have scaled : (z : ℚ) / den * (b * den) = (z * b : Nat) := by
    push_cast
    field_simp
  constructor
  · rw [← mul_le_mul_iff_of_pos_right both, scaled, eq, Nat.cast_le]
  · rw [← mul_le_mul_iff_of_pos_right both, scaled, eq, Nat.cast_le]

theorem holds_iff (positive : 0 < i.den) (n : Nat) (e : Int) :
    i.holds n e = true ↔ i.Contains (n * (10 : ℚ) ^ e) := by
  unfold holds Contains
  split
  next a b point =>
  have power (k : Nat) : 0 < Nat.pow 10 k := Nat.pow_pos (by decide)
  have parts : 0 < b ∧ n * (10 : ℚ) ^ e * (b * i.den) = a := by
    split at point
    next nonneg =>
      cases point
      rw [ten_zpow_of_nonneg nonneg]
      refine ⟨Nat.one_pos, ?_⟩
      push_cast
      ring
    next negative =>
      cases point
      have some : ((Nat.pow 10 (-e).toNat : Nat) : ℚ) ≠ 0 := by exact_mod_cast (power _).ne'
      rw [ten_zpow_of_neg negative]
      refine ⟨power _, ?_⟩
      push_cast at some ⊢
      field_simp
  have low := compare_iff positive parts.1 parts.2 i.low
  have high := compare_iff positive parts.1 parts.2 i.high
  split
  · rw [Bool.and_eq_true, decide_eq_true_eq, decide_eq_true_eq, low.1, high.2]
  · rw [Bool.and_eq_true, decide_eq_true_eq, decide_eq_true_eq, ← not_le, ← not_le, ← not_le,
      ← not_le, low.2, high.1]

theorem gridCell_bounds (positive : 0 < i.den) (e : Int) :
    ((i.gridCell e).1 : ℚ) * (10 : ℚ) ^ e ≤ (i.mid : ℚ) / i.den ∧
      (i.mid : ℚ) / i.den < ((i.gridCell e).1 + 1 : Nat) * (10 : ℚ) ^ e := by
  have den : (0 : ℚ) < i.den := by exact_mod_cast positive
  have unit := ten_zpow_pos e
  unfold gridCell
  split
  next n d quotient =>
  have parts : 0 < d ∧ (i.mid : ℚ) / i.den / (10 : ℚ) ^ e = (n : ℚ) / d := by
    split at quotient
    next nonneg =>
      cases quotient
      refine ⟨Nat.mul_pos positive (Nat.pow_pos (by decide)), ?_⟩
      rw [ten_zpow_of_nonneg nonneg, div_div]
      push_cast
      rfl
    next negative =>
      cases quotient
      refine ⟨positive, ?_⟩
      rw [ten_zpow_of_neg negative, div_inv_eq_mul, div_mul_eq_mul_div]
      push_cast
      rfl
  have divisor : (0 : ℚ) < d := by exact_mod_cast parts.1
  rw [← le_div_iff₀ unit, ← div_lt_iff₀ unit, parts.2, le_div_iff₀ divisor, div_lt_iff₀ divisor]
  exact ⟨by exact_mod_cast Nat.div_mul_le_self n d,
    by exact_mod_cast (Nat.div_lt_iff_lt_mul parts.1).1 (Nat.lt_succ_self _)⟩

end Interval

/-! ## The decimal exponent -/

/-- The decimal logarithm of two is a little less than 30103 / 100000. -/
theorem ten_pow_le_two_pow : ∀ l < 1100, Nat.pow 10 (l * 30103 / 100000) ≤ 5 * Nat.pow 2 l := by
  have checked : ((List.range 1100).all fun l =>
      Nat.pow 10 (l * 30103 / 100000) ≤ 5 * Nat.pow 2 l) = true := by decide +kernel
  exact fun l small => of_decide_eq_true (List.all_eq_true.1 checked l (List.mem_range.2 small))

theorem two_pow_le_ten_pow :
    ∀ l < 1100, Nat.pow 2 l ≤ 5 * Nat.pow 10 ((l * 30103 + 99999) / 100000) := by
  have checked : ((List.range 1100).all fun l =>
      Nat.pow 2 l ≤ 5 * Nat.pow 10 ((l * 30103 + 99999) / 100000)) = true := by decide +kernel
  exact fun l small => of_decide_eq_true (List.all_eq_true.1 checked l (List.mem_range.2 small))

/-- A number that is at least half of a power of two is at least the power of ten that is estimated from
the exponent of two. -/
theorem ten_zpow_estimate_le {l : Int} (low : -1100 < l) (high : l < 1100) :
    (10 : ℚ) ^ (l * 30103 / 100000 - 1) ≤ (2 : ℚ) ^ (l - 1) := by
  rw [zpow_sub_one₀ (by norm_num), zpow_sub_one₀ (by norm_num)]
  by_cases nonneg : 0 ≤ l
  · obtain ⟨n, rfl⟩ := Int.eq_ofNat_of_zero_le nonneg
    have bound : ((Nat.pow 10 (n * 30103 / 100000) : Nat) : ℚ) ≤ (5 * Nat.pow 2 n : Nat) := by
      exact_mod_cast ten_pow_le_two_pow n (by omega)
    have whole : (n : Int) * 30103 / 100000 = (n * 30103 / 100000 : Nat) := by omega
    rw [whole, zpow_natCast, zpow_natCast]
    rw [Nat.pow_eq, Nat.pow_eq] at bound
    push_cast at bound
    linarith
  · obtain ⟨n, eq⟩ := Int.eq_ofNat_of_zero_le (by omega : 0 ≤ -l)
    obtain rfl : l = -(n : Int) := by omega
    have bound : ((Nat.pow 2 n : Nat) : ℚ) ≤ (5 * Nat.pow 10 ((n * 30103 + 99999) / 100000) : Nat) := by
      exact_mod_cast two_pow_le_ten_pow n (by omega)
    have whole : -(n : Int) * 30103 / 100000 = -((n * 30103 + 99999) / 100000 : Nat) := by omega
    rw [whole, zpow_neg, zpow_neg, zpow_natCast, zpow_natCast, ← mul_inv, ← mul_inv]
    rw [Nat.pow_eq, Nat.pow_eq] at bound
    push_cast at bound
    exact inv_anti₀ (by positivity) (by linarith)

namespace Interval

variable {i : Interval}

/-- Whether the middle is at least a power of ten. -/
def reaches (i : Interval) (p : Int) : Bool :=
  if 0 ≤ p then i.den * Nat.pow 10 p.toNat ≤ i.mid else i.den ≤ i.mid * Nat.pow 10 (-p).toNat

/-- The decimal exponent that is estimated from the binary lengths. -/
def estimate (i : Interval) : Int :=
  ((Nat.log2 i.mid : Int) - Nat.log2 i.den) * 30103 / 100000 - 1

theorem decimalExponent_eq (i : Interval) :
    i.decimalExponent =
      if i.reaches (i.estimate + 2) then i.estimate + 2
      else if i.reaches (i.estimate + 1) then i.estimate + 1
      else i.estimate := rfl

theorem ten_zpow_le_of_reaches (positive : 0 < i.den) {p : Int} (test : i.reaches p = true) :
    (10 : ℚ) ^ p ≤ (i.mid : ℚ) / i.den := by
  have den : (0 : ℚ) < i.den := by exact_mod_cast positive
  rw [le_div_iff₀ den]
  unfold reaches at test
  split at test
  next nonneg =>
    have bound : ((i.den * Nat.pow 10 p.toNat : Nat) : ℚ) ≤ i.mid := by
      exact_mod_cast of_decide_eq_true test
    rw [ten_zpow_of_nonneg nonneg, mul_comm]
    exact_mod_cast bound
  next negative =>
    have bound : (i.den : ℚ) ≤ (i.mid * Nat.pow 10 (-p).toNat : Nat) := by
      exact_mod_cast of_decide_eq_true test
    have power : (0 : ℚ) < (Nat.pow 10 (-p).toNat : Nat) := by
      exact_mod_cast Nat.pow_pos (by decide)
    rw [ten_zpow_of_neg negative, inv_mul_le_iff₀ power, mul_comm]
    exact_mod_cast bound

/-- A quotient is at least half of the power of two that the binary lengths of its parts give. -/
theorem two_zpow_le_mid (positive : 0 < i.den) (some : 0 < i.mid) :
    (2 : ℚ) ^ ((Nat.log2 i.mid : Int) - Nat.log2 i.den - 1) ≤ (i.mid : ℚ) / i.den := by
  have den : (0 : ℚ) < i.den := by exact_mod_cast positive
  have low : ((2 ^ Nat.log2 i.mid : Nat) : ℚ) ≤ i.mid := by
    exact_mod_cast Nat.log2_self_le some.ne'
  have high : (i.den : ℚ) ≤ (2 ^ (Nat.log2 i.den + 1) : Nat) := by
    exact_mod_cast Nat.lt_log2_self.le
  rw [sub_sub, zpow_sub₀ (by norm_num)]
  refine div_le_div₀ (by positivity) ?_ den ?_
  · exact_mod_cast low
  · exact_mod_cast high

theorem ten_zpow_decimalExponent_le (positive : 0 < i.den) (some : 0 < i.mid)
    (mid : Nat.log2 i.mid < 1100) (den : Nat.log2 i.den < 1100) :
    (10 : ℚ) ^ i.decimalExponent ≤ (i.mid : ℚ) / i.den := by
  rw [decimalExponent_eq]
  split
  next test => exact ten_zpow_le_of_reaches positive test
  split
  next test => exact ten_zpow_le_of_reaches positive test
  · exact (ten_zpow_estimate_le (by omega) (by omega)).trans (two_zpow_le_mid positive some)

/-! ## The search -/

theorem gridPoint?_holds {tie : Tie} {e : Int} {n : Nat} (found : i.gridPoint? tie e = some n) :
    i.holds n e = true := by
  unfold gridPoint? at found
  simp only at found
  split at found
  next low high =>
    split at found
    · exact Option.some.inj found ▸ low
    · split at found
      · exact Option.some.inj found ▸ high
      · split at found
        · exact Option.some.inj found ▸ low
        · exact Option.some.inj found ▸ high
  next low _ => exact Option.some.inj found ▸ low
  next _ high => exact Option.some.inj found ▸ high
  next => cases found

theorem gridPoint?_isSome (positive : 0 < i.den) (tie : Tie) {e : Int}
    (inside : (i.low : ℚ) / i.den < (i.mid : ℚ) / i.den ∧ (i.mid : ℚ) / i.den < (i.high : ℚ) / i.den)
    (fine : (10 : ℚ) ^ e < (i.high : ℚ) / i.den - (i.low : ℚ) / i.den) :
    (i.gridPoint? tie e).isSome = true := by
  obtain ⟨below, above⟩ := i.gridCell_bounds positive e
  have some : i.holds (i.gridCell e).1 e = true ∨ i.holds ((i.gridCell e).1 + 1) e = true := by
    rw [holds_iff positive, holds_iff positive]
    by_cases near : (i.low : ℚ) / i.den < (i.gridCell e).1 * (10 : ℚ) ^ e
    · exact .inl (contains_of_lt near (below.trans_lt inside.2))
    · refine .inr (contains_of_lt (inside.1.trans above) ?_)
      push_cast at above ⊢
      linarith
  unfold gridPoint?
  simp only
  split
  · split
    · rfl
    · split <;> rfl
  · rfl
  · rfl
  next low high =>
    rw [low, high] at some
    simp at some

/-- The search ends on a point of the interval if it comes to a grid that has one. -/
theorem coarsest_holds (tie : Tie) {e : Int} {steps k : Nat} (within : k < steps)
    (some : (i.gridPoint? tie (e - k)).isSome = true) :
    i.holds (i.coarsest tie e steps).1 (i.coarsest tie e steps).2 = true := by
  induction steps generalizing e k with
  | zero => cases within
  | succ steps ih =>
    unfold coarsest
    split
    next found => exact gridPoint?_holds found
    next none =>
      cases k with
      | zero => simp [none] at some
      | succ k =>
        refine ih (k := k) (by omega) ?_
        rw [show e - 1 - (k : Int) = e - (k + 1 : Nat) by push_cast; ring]
        exact some

end Interval

/-! ## The interval of a number -/

theorem two_zpow_eq (s : Int) :
    (2 : ℚ) ^ s = ((2 ^ s.toNat : Nat) : ℚ) / (2 ^ (-s).toNat : Nat) := by
  rcases Int.le_total 0 s with nonneg | nonpos
  · obtain ⟨n, rfl⟩ := Int.eq_ofNat_of_zero_le nonneg
    simp
  · obtain ⟨n, eq⟩ := Int.eq_ofNat_of_zero_le (by omega : 0 ≤ -s)
    obtain rfl : s = -(n : Int) := by omega
    simp

theorem interval_eq (x : Binary64) :
    x.interval =
      { low := (4 * significandAt x.magnitude - gapAt x.magnitude) * 2 ^ (scaleAt x.magnitude).toNat
        mid := 4 * significandAt x.magnitude * 2 ^ (scaleAt x.magnitude).toNat
        high := (4 * significandAt x.magnitude + 2) * 2 ^ (scaleAt x.magnitude).toNat
        den := 4 * 2 ^ (-scaleAt x.magnitude).toNat
        closed := significandAt x.magnitude % 2 = 0 } := by
  have significand : x.significand = significandAt x.magnitude := rfl
  have scale : x.scale = scaleAt x.magnitude := rfl
  have gap : (if x.significand = leastNormal ∧ x.scale ≠ -1074 then 1 else 2) =
      gapAt x.magnitude := rfl
  unfold interval
  simp only [gap]
  rw [significand, scale]
  split
  next nonneg =>
    have zero : (-scaleAt x.magnitude).toNat = 0 := by omega
    simp [zero, Nat.one_shiftLeft]
  next negative =>
    have zero : (scaleAt x.magnitude).toNat = 0 := by omega
    simp [zero, Nat.one_shiftLeft]

section Finite

variable {x y : Binary64}

theorem significandAt_pos {k : Nat} (h : k ≠ 0) : 0 < significandAt k := by
  unfold significandAt
  split
  · omega
  · exact Nat.add_pos_left (by decide) _

theorem gapAt_le (k : Nat) : gapAt k ≤ 2 := by
  unfold gapAt
  split <;> decide

theorem interval_den_pos (x : Binary64) : 0 < x.interval.den := by
  rw [interval_eq]
  positivity

theorem quarters_eq (x : Binary64) (n : Nat) :
    ((n * 2 ^ (scaleAt x.magnitude).toNat : Nat) : ℚ) / x.interval.den =
      n / 4 * (2 : ℚ) ^ scaleAt x.magnitude := by
  rw [interval_eq, two_zpow_eq]
  push_cast
  field_simp

theorem interval_low (nonzero : x.magnitude ≠ 0) :
    (x.interval.low : ℚ) / x.interval.den = boundary x.magnitude := by
  have some := significandAt_pos nonzero
  have gap := gapAt_le x.magnitude
  have low : x.interval.low =
      (4 * significandAt x.magnitude - gapAt x.magnitude) * 2 ^ (scaleAt x.magnitude).toNat := by
    rw [interval_eq]
  rw [low, quarters_eq, boundary, Nat.cast_sub (by omega)]
  push_cast
  rfl

theorem interval_high (x : Binary64) :
    (x.interval.high : ℚ) / x.interval.den = boundary (x.magnitude + 1) := by
  have high : x.interval.high =
      (4 * significandAt x.magnitude + 2) * 2 ^ (scaleAt x.magnitude).toNat := by rw [interval_eq]
  rw [high, quarters_eq, boundary_succ]
  push_cast
  rfl

theorem interval_mid (x : Binary64) :
    (x.interval.mid : ℚ) / x.interval.den =
      significandAt x.magnitude * (2 : ℚ) ^ scaleAt x.magnitude := by
  have mid : x.interval.mid = 4 * significandAt x.magnitude * 2 ^ (scaleAt x.magnitude).toNat := by
    rw [interval_eq]
  rw [mid, quarters_eq]
  push_cast
  ring

theorem interval_closed (x : Binary64) :
    x.interval.closed = true ↔ x.magnitude % 2 = 0 := by
  have parity : significandAt x.magnitude % 2 = x.magnitude % 2 := by
    unfold significandAt leastNormal
    split <;> omega
  rw [interval_eq, decide_eq_true_eq, parity]

/-! ## Numbers with a common point -/

/-- A point belongs to the interval of one magnitude at most. -/
theorem eq_of_contains {r : ℚ} (hx : x.magnitude ≠ 0) (hy : y.magnitude ≠ 0)
    (inX : x.interval.Contains r) (inY : y.interval.Contains r) : x.magnitude = y.magnitude := by
  have apart {x y : Binary64} (hy : y.magnitude ≠ 0) (inX : x.interval.Contains r)
      (inY : y.interval.Contains r) : ¬ x.magnitude < y.magnitude := by
    intro less
    have top := inX.le.2
    have bottom := inY.le.1
    have order := boundary_strictMono.monotone (Nat.succ_le_of_lt less)
    rw [interval_high] at top
    rw [interval_low hy] at bottom
    -- The point is the common end of the two intervals, which only one of them has.
    have next : x.magnitude + 1 = y.magnitude :=
      boundary_strictMono.injective (le_antisymm order (bottom.trans top))
    have edgeX := inX.closed (.inr (le_antisymm (top.trans_eq (interval_high x).symm)
      ((interval_high x).trans_le (order.trans bottom))))
    have edgeY := inY.closed (.inl (le_antisymm (top.trans (order.trans_eq (interval_low hy).symm))
      ((interval_low hy).trans_le bottom)))
    rw [interval_closed] at edgeX edgeY
    omega
  exact Nat.le_antisymm (Nat.not_lt.1 (apart hx inY inX)) (Nat.not_lt.1 (apart hy inX inY))

/-! ## The digits of a number -/

theorem significandAt_lt (k : Nat) : significandAt k < 0x20000000000000 := by
  unfold significandAt leastNormal
  split <;> omega

theorem fine_of_le {e : Int} (nonzero : x.magnitude ≠ 0)
    (le : (10 : ℚ) ^ e ≤ (x.interval.mid : ℚ) / x.interval.den) :
    (10 : ℚ) ^ (e - (16 : Nat)) <
      (x.interval.high : ℚ) / x.interval.den - (x.interval.low : ℚ) / x.interval.den := by
  have unit := two_zpow_pos (scaleAt x.magnitude)
  have small : (significandAt x.magnitude : ℚ) < 0x20000000000000 := by
    exact_mod_cast significandAt_lt x.magnitude
  have wide : (significandAt x.magnitude : ℚ) / 10 ^ 16 < (2 + gapAt x.magnitude) / 4 := by
    unfold gapAt
    split
    next narrow =>
      rw [narrow.1]
      norm_num [leastNormal]
    next =>
      push_cast
      linarith
  calc (10 : ℚ) ^ (e - (16 : Nat)) = (10 : ℚ) ^ e / 10 ^ 16 := by
        rw [zpow_sub₀ (by norm_num), zpow_natCast]
    _ ≤ significandAt x.magnitude / 10 ^ 16 * (2 : ℚ) ^ scaleAt x.magnitude := by
        rw [interval_mid] at le
        rw [div_mul_eq_mul_div]
        exact div_le_div_of_nonneg_right le (by norm_num)
    _ < (2 + gapAt x.magnitude) / 4 * (2 : ℚ) ^ scaleAt x.magnitude :=
        mul_lt_mul_of_pos_right wide unit
    _ = (x.interval.high : ℚ) / x.interval.den - (x.interval.low : ℚ) / x.interval.den := by
        rw [interval_high, interval_low nonzero, boundary_succ, boundary]
        ring

theorem scaleAt_bounds (finite : x.isFinite = true) :
    -1074 ≤ scaleAt x.magnitude ∧ scaleAt x.magnitude ≤ 971 := by
  have small : x.magnitude < 2047 * 0x10000000000000 := of_decide_eq_true finite
  unfold scaleAt leastNormal
  split <;> omega

theorem interval_log2 (finite : x.isFinite = true) (nonzero : x.magnitude ≠ 0) :
    0 < x.interval.mid ∧ Nat.log2 x.interval.mid < 1100 ∧ Nat.log2 x.interval.den < 1100 := by
  obtain ⟨low, high⟩ := scaleAt_bounds finite
  have some := significandAt_pos nonzero
  have small := significandAt_lt x.magnitude
  have mid : x.interval.mid = 4 * significandAt x.magnitude * 2 ^ (scaleAt x.magnitude).toNat := by
    rw [interval_eq]
  have den : x.interval.den = 4 * 2 ^ (-scaleAt x.magnitude).toNat := by rw [interval_eq]
  have positive : 0 < x.interval.mid := by
    rw [mid]
    positivity
  have midLength : Nat.log2 x.interval.mid < 55 + (scaleAt x.magnitude).toNat := by
    rw [Nat.log2_lt positive.ne', mid, Nat.pow_add]
    exact Nat.mul_lt_mul_of_pos_right (by omega) (Nat.two_pow_pos _)
  have denLength : Nat.log2 x.interval.den < 3 + (-scaleAt x.magnitude).toNat := by
    rw [Nat.log2_lt x.interval_den_pos.ne', den, Nat.pow_add]
    exact Nat.mul_lt_mul_of_pos_right (by decide) (Nat.two_pow_pos _)
  exact ⟨positive, by omega, by omega⟩

theorem interval_inside (nonzero : x.magnitude ≠ 0) :
    (x.interval.low : ℚ) / x.interval.den < (x.interval.mid : ℚ) / x.interval.den ∧
      (x.interval.mid : ℚ) / x.interval.den < (x.interval.high : ℚ) / x.interval.den := by
  have unit := two_zpow_pos (scaleAt x.magnitude)
  have gap : (0 : ℚ) < gapAt x.magnitude := by
    have positive : 0 < gapAt x.magnitude := by unfold gapAt; split <;> decide
    exact_mod_cast positive
  rw [interval_low nonzero, interval_high, interval_mid, boundary_succ, boundary]
  exact ⟨mul_lt_mul_of_pos_right (by linarith) unit, mul_lt_mul_of_pos_right (by linarith) unit⟩

theorem boundary_pos {k : Nat} (nonzero : k ≠ 0) : 0 < boundary k := by
  have some : (1 : ℚ) ≤ significandAt k := by exact_mod_cast significandAt_pos nonzero
  have gap : (gapAt k : ℚ) ≤ 2 := by exact_mod_cast gapAt_le k
  exact mul_pos (by linarith) (two_zpow_pos _)

theorem shortest_value (tie : Tie) (x : Binary64) :
    ((x.shortest tie).1 : ℚ) * (10 : ℚ) ^ (x.shortest tie).2 =
      (x.interval.coarsest tie x.interval.decimalExponent 17).1 *
        (10 : ℚ) ^ (x.interval.coarsest tie x.interval.decimalExponent 17).2 := by
  simp only [shortest]
  generalize x.interval.coarsest tie x.interval.decimalExponent 17 = found
  split
  next round =>
    have tens : ((10 * (found.1 / 10) : Nat) : ℚ) = found.1 := by
      exact_mod_cast Nat.mul_div_cancel' (Nat.dvd_of_mod_eq_zero round)
    rw [← tens, zpow_add_one₀ (by norm_num)]
    push_cast
    ring
  next => rfl

/-- The digits of a finite number other than zero are not zero, and lie in its interval. -/
theorem shortest_contains (tie : Tie) (finite : x.isFinite = true) (nonzero : x.magnitude ≠ 0) :
    0 < (x.shortest tie).1 ∧
      x.interval.Contains ((x.shortest tie).1 * (10 : ℚ) ^ (x.shortest tie).2) := by
  obtain ⟨some, mid, den⟩ := interval_log2 finite nonzero
  have positive := x.interval_den_pos
  have isSome := Interval.gridPoint?_isSome positive tie (interval_inside nonzero)
    (fine_of_le nonzero (Interval.ten_zpow_decimalExponent_le positive some mid den))
  have found := Interval.coarsest_holds tie (show 16 < 17 by decide) isSome
  rw [Interval.holds_iff positive, ← shortest_value] at found
  have low := found.le.1
  rw [interval_low nonzero] at low
  have value := (boundary_pos nonzero).trans_le low
  refine ⟨?_, found⟩
  exact_mod_cast (mul_pos_iff_of_pos_right (Interval.ten_zpow_pos _)).1 value

end Finite

end DraftLedger.Binary64
