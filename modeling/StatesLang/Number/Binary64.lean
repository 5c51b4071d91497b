/-!
# Finite binary64 numbers

A finite double is a sign and a magnitude, counted in units of `2^-1074`, the distance between the
smallest doubles. Order and arithmetic are then those of integers, followed by one rounding.

* `Binary64.IsMagnitude`: the counts that a double can hold.
* `Binary64.round`: the double nearest to a quotient, ties to even.
* `Binary64.add`, `mul`, `div`: the exact result, rounded; `none` where it is not finite.
* `Binary64.value`: the number of units with its sign; `Binary64.compare` compares values.
* `Binary64.tenPower`: the double nearest to a power of ten; `Binary64.scaleTen`: a double times a
  power of ten, `none` beyond the largest double.
-/

namespace StatesLang

/-- A count of units `2^-1074` is a magnitude if it lies below `2^1024` and has at most 53
significant bits. -/
def Binary64.IsMagnitude (units : Nat) : Prop :=
  units < 1 <<< 2098 ∧ 1 <<< (units.log2 - 52) ∣ units

instance (units : Nat) : Decidable (Binary64.IsMagnitude units) :=
  inferInstanceAs (Decidable (_ ∧ _))

/-- A finite double. Zero has two signs. -/
structure Binary64 where
  /-- The sign, also of a zero. -/
  negative : Bool
  /-- The magnitude in units of `2^-1074`. -/
  units : Nat
  representable : Binary64.IsMagnitude units
deriving DecidableEq

namespace Binary64

/-- Units in one. -/
def one : Nat := 1 <<< 1074

/-- Zero with a sign. -/
def zero (negative : Bool) : Binary64 :=
  ⟨negative, 0, by decide, Nat.dvd_zero _⟩

instance : Inhabited Binary64 := ⟨zero false⟩

def isZero (x : Binary64) : Bool := x.units == 0

/-- The number of units, with the sign. -/
def value (x : Binary64) : Int :=
  if x.negative then -(x.units : Int) else x.units

/-- Doubles are ordered by value; both zeros are equal. -/
def compare (x y : Binary64) : Ordering :=
  Ord.compare x.value y.value

/-- The same magnitude with the other sign. -/
def neg (x : Binary64) : Binary64 :=
  { x with negative := !x.negative }

/-! ## Rounding -/

/-- The integer nearest to `num / den`; of two as near, the even one. -/
def nearest (num den : Nat) : Nat :=
  let q := num / den
  let r := num % den
  if 2 * r < den ∨ (2 * r = den ∧ q % 2 = 0) then q else q + 1

/-- The exponent of the distance, in units, between the doubles around `num / den` units. -/
def spacing (num den : Nat) : Nat :=
  (num / den).log2 - 52

/-- The count of units with 53 significant bits that is nearest to `num / den`. -/
def roundUnits (num den : Nat) : Nat :=
  let e := spacing num den
  nearest num (den <<< e) <<< e

/-- The double nearest to `num / den` units, `none` beyond the largest one. -/
def round (negative : Bool) (num den : Nat) : Option Binary64 :=
  let u := roundUnits num den
  if h : IsMagnitude u then some ⟨negative, u, h⟩ else none

/-! ## Arithmetic -/

/-- The double nearest to an integer. -/
def ofInt? (n : Int) : Option Binary64 :=
  round (n < 0) (n.natAbs * one) 1

/-- The double nearest to an integer, zero for those beyond every double. -/
def ofInt (n : Int) : Binary64 :=
  (ofInt? n).getD (zero false)

/-- The sum. Only two negative zeros add up to a negative zero. -/
def add (x y : Binary64) : Option Binary64 :=
  let sum := x.value + y.value
  if sum = 0 then
    some (zero (x.negative && y.negative && x.isZero && y.isZero))
  else round (sum < 0) sum.natAbs 1

/-- The product. -/
def mul (x y : Binary64) : Option Binary64 :=
  round (x.negative != y.negative) (x.units * y.units) one

/-- The quotient, `none` for the divisor zero. -/
def div (x y : Binary64) : Option Binary64 :=
  if y.units = 0 then none
  else round (x.negative != y.negative) (x.units * one) y.units

/-- The double nearest to `digits · 10^exponent`, `none` beyond the largest one. Digits that stand
too far from the point for any double are not multiplied out. -/
def ofDecimal (negative : Bool) (digits : Nat) (exponent : Int) : Option Binary64 :=
  let size : Int := digits.log2 / 4 + exponent
  if digits = 0 then some (zero negative)
  else if 400 < size then none
  else if (digits.log2 : Int) + exponent < -500 then some (zero negative)
  else if 0 ≤ exponent then round negative (digits * Nat.pow 10 exponent.toNat * one) 1
  else round negative (digits * one) (Nat.pow 10 (-exponent).toNat)

/-- The integer nearest to the value, halves away from zero. -/
def toNearestInt (x : Binary64) : Int :=
  let magnitude := (2 * x.units + one) / (2 * one)
  if x.negative then -(magnitude : Int) else magnitude

/-!
## Scaling by a power of ten

Document numbers are read in two steps: the significant digits are rounded to a double, and that is
multiplied or divided by a power of ten, itself a rounded double. For short numbers this is the
nearest double; for long ones the last bit may differ from it.
-/

/-- The greatest exponent of a power of ten among the doubles. -/
def maxTenPower : Nat := 308

/-- The double nearest to `10^k`, for `k` up to `maxTenPower`. -/
def tenPower (k : Nat) : Binary64 :=
  (ofDecimal false 1 k).getD (zero false)

/-- A double divided by `10^k`, in steps of the greatest power of ten. -/
def scaleDown (x : Binary64) (k : Nat) : Binary64 :=
  if k ≤ maxTenPower then (x.div (tenPower k)).getD x
  else if x.isZero then x
  else scaleDown ((x.div (tenPower maxTenPower)).getD x) (k - maxTenPower)
termination_by k
decreasing_by simp only [maxTenPower] at *; omega

/-- A double times `10^e`. -/
def scaleTen (x : Binary64) (e : Int) : Option Binary64 :=
  if 0 ≤ e then
    if e ≤ maxTenPower then x.mul (tenPower e.toNat)
    else if x.isZero then some x
    else none
  else some (scaleDown x (-e).toNat)

end Binary64

end StatesLang
