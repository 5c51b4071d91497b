import StatesLang.Number.Binary64

/-!
# The shortest decimal that reads back

For every number of digits the candidates are the two neighbours of the value on that decimal grid.
The first grid with a neighbour in the interval of reals that round to the value wins.

* `Shortest.Interval`: the reals that round to a double, as fractions of a unit.
* `Shortest.Tie`: which of two neighbours equally near is taken.
* `Binary64.shortest`: the digits and the exponent of ten of a positive magnitude.
-/

namespace StatesLang

/-- A decimal `digits · 10^exponent`. -/
structure Decimal where
  digits : Nat
  exponent : Int
deriving DecidableEq

namespace Shortest

/-- Which of two decimals equally near is taken. -/
inductive Tie
  | toEven
  | up
deriving DecidableEq

/-- The reals that round to a magnitude, in quarters of a unit `2^-1074`. -/
structure Interval where
  low : Nat
  high : Nat
  /-- Whether the ends round to the magnitude too. -/
  closed : Bool

/-- The interval of a magnitude. Below a power of two the doubles stand twice as dense. -/
def interval (units : Nat) : Interval :=
  let spacing := 1 <<< (units.log2 - 52)
  let below := if units = 1 <<< units.log2 ∧ 53 ≤ units.log2 then spacing else 2 * spacing
  ⟨4 * units - below, 4 * units + 2 * spacing, (units / spacing) % 2 = 0⟩

/-- Whether `a / b` quarter units lie in the interval. -/
def Interval.contains (i : Interval) (a b : Nat) : Bool :=
  if i.closed then i.low * b ≤ a && a ≤ i.high * b
  else i.low * b < a && a < i.high * b

/-- The power `10^e` as a fraction. -/
def tenPow (e : Int) : Nat × Nat :=
  if 0 ≤ e then (Nat.pow 10 e.toNat, 1) else (1, Nat.pow 10 (-e).toNat)

/-- The exponent of the leading digit: the greatest `k` with `10^k ≤ units / 2^1074`, searched
downwards from `k`. -/
def leading (units : Nat) : Nat → Int → Int
  | 0, k => k
  | steps + 1, k =>
    let (a, b) := tenPow k
    if a * Binary64.one ≤ units * b then k else leading units steps (k - 1)

/-- An upper bound of the exponent of the leading digit, at most two too large. -/
def leadingBound (units : Nat) : Int :=
  (((units.log2 : Int) - 1074) * 30103) / 100000 + 1

/-- The neighbour of the value on the grid `10^p` that reads back, the nearer of two. -/
def neighbour (tie : Tie) (i : Interval) (units : Nat) (p : Int) : Option Nat :=
  let (a, b) := tenPow p
  -- units / 2^1074 = (c + r / den) · 10^p
  let num := units * b
  let den := a * Binary64.one
  let c := num / den
  let r := num % den
  let fits (d : Nat) := i.contains (4 * d * den) b
  match fits c, fits (c + 1) with
  | true, true =>
    if 2 * r < den then some c
    else if 2 * r = den then
      match tie with
      | .toEven => if c % 2 = 0 then some c else some (c + 1)
      | .up => some (c + 1)
    else some (c + 1)
  | true, false => some c
  | false, true => some (c + 1)
  | false, false => none

/-- The first grid with a neighbour that reads back, from the coarsest on. -/
def search (tie : Tie) (i : Interval) (units : Nat) : Nat → Int → Decimal
  | 0, p => ⟨(neighbour tie i units p).getD 0, p⟩
  | steps + 1, p =>
    match neighbour tie i units p with
    | some d => ⟨d, p⟩
    | none => search tie i units steps (p - 1)

/-- Drops the trailing zeros of a decimal. -/
def strip : Nat → Decimal → Decimal
  | 0, d => d
  | steps + 1, d =>
    if d.digits % 10 = 0 ∧ d.digits ≠ 0 then strip steps ⟨d.digits / 10, d.exponent + 1⟩ else d

end Shortest

/-- The shortest decimal that rounds to the magnitude of a double. Seventeen digits suffice. -/
def Binary64.shortest (tie : Shortest.Tie) (x : Binary64) : Decimal :=
  if x.units = 0 then ⟨0, 0⟩
  else
    let k := Shortest.leading x.units 3 (Shortest.leadingBound x.units)
    Shortest.strip 17 (Shortest.search tie (Shortest.interval x.units) x.units 17 k)

end StatesLang
