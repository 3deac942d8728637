import DraftLedger.Binary64
import DraftLedger.Text.Digits

/-!
# The fewest digits that read back

Every real number in a small interval around a finite number rounds to it.  The decimal form of the
number is the point of the coarsest decimal grid that lies in the interval, the nearest one if the
grid has two.  Of two points at the same distance a format takes the even one or the greater one.

* `Binary64.Interval` : the interval, as integer bounds over one denominator.
* `Binary64.Tie` : which of two points at the same distance is taken.
* `Binary64.shortest` : digits and decimal exponent.
-/

set_option autoImplicit false

namespace DraftLedger.Binary64

/-- Which of two decimal numbers at the same distance stands for a number. -/
inductive Tie where
  /-- The one whose last digit is even. -/
  | toEven
  /-- The greater one in magnitude. -/
  | away
deriving DecidableEq

/-- The interval of reals that round to a number, in units of `1 / den`: from `low` to `high`, with
`mid` the number itself, the ends belonging to it when `closed`. -/
structure Interval where
  low : Nat
  mid : Nat
  high : Nat
  den : Nat
  closed : Bool

/-- The interval of reals that round to the magnitude of a finite number. Just above a power of two
the neighbour below is twice as near as the one above. -/
def interval (x : Binary64) : Interval :=
  let m := x.significand
  let narrow := m = leastNormal ∧ x.scale ≠ -1074
  let (num, den) := if 0 ≤ x.scale then (1 <<< x.scale.toNat, 1) else (1, 1 <<< (-x.scale).toNat)
  { low := (4 * m - if narrow then 1 else 2) * num
    mid := 4 * m * num
    high := (4 * m + 2) * num
    den := 4 * den
    closed := m % 2 = 0 }

/-- Whether `n * 10 ^ e` lies in the interval. -/
def Interval.holds (i : Interval) (n : Nat) (e : Int) : Bool :=
  let (a, b) := if 0 ≤ e then (n * Nat.pow 10 e.toNat * i.den, 1) else (n * i.den, Nat.pow 10 (-e).toNat)
  if i.closed then i.low * b ≤ a && a ≤ i.high * b else i.low * b < a && a < i.high * b

/-- The quotient of the middle by `10 ^ e`, with remainder and divisor. -/
def Interval.gridCell (i : Interval) (e : Int) : Nat × Nat × Nat :=
  let (n, d) :=
    if 0 ≤ e then (i.mid, i.den * Nat.pow 10 e.toNat)
    else (i.mid * Nat.pow 10 (-e).toNat, i.den)
  (n / d, n % d, d)

/-- The exponent `p` with `10 ^ p ≤ mid < 10 ^ (p + 1)`, found next to an estimate from the binary
lengths. -/
def Interval.decimalExponent (i : Interval) : Int :=
  let estimate : Int := ((Nat.log2 i.mid : Int) - Nat.log2 i.den) * 30103 / 100000 - 1
  let atLeast (p : Int) : Bool :=
    if 0 ≤ p then i.den * Nat.pow 10 p.toNat ≤ i.mid
    else i.den ≤ i.mid * Nat.pow 10 (-p).toNat
  if atLeast (estimate + 2) then estimate + 2
  else if atLeast (estimate + 1) then estimate + 1
  else estimate

/-- The point of the grid of `10 ^ e` that lies in the interval, the nearer one of two. -/
def Interval.gridPoint? (i : Interval) (tie : Tie) (e : Int) : Option Nat :=
  let (q, r, d) := i.gridCell e
  match i.holds q e, i.holds (q + 1) e with
  | true, true =>
    if 2 * r < d then some q
    else if d < 2 * r then some (q + 1)
    else some (if tie = .toEven ∧ q % 2 = 0 then q else q + 1)
  | true, false => some q
  | false, true => some (q + 1)
  | false, false => none

/-- The first grid with a point in the interval, from `10 ^ e` downwards. -/
def Interval.coarsest (i : Interval) (tie : Tie) (e : Int) : Nat → Nat × Int
  | 0 => ((i.gridCell e).1, e)
  | steps + 1 =>
    match i.gridPoint? tie e with
    | some n => (n, e)
    | none => i.coarsest tie (e - 1) steps

/-- Digits and decimal exponent of a finite number other than zero: its magnitude is nearest to
`digits * 10 ^ exponent`, with as few digits as read back. Seventeen digits always suffice. -/
def shortest (tie : Tie) (x : Binary64) : Nat × Int :=
  let i := x.interval
  let (n, e) := i.coarsest tie i.decimalExponent 17
  if n % 10 = 0 then (n / 10, e + 1) else (n, e)

end DraftLedger.Binary64
