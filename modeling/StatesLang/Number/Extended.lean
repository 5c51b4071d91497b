import StatesLang.Number.Notation

/-!
# Binary64 numbers with the infinities

* `Extended`: a finite double, an infinity or not a number.
* `Extended.render`: its text in a notation.
* `Extended.ofDecimal`: the nearest double, an infinity beyond the largest one.
* `Extended.isBelow`: whether a number is less than a finite one.
-/

namespace StatesLang

/-- A binary64 number of any sort. -/
inductive Extended
  | finite (x : Binary64)
  | infinite (negative : Bool)
  | notANumber
deriving DecidableEq

namespace Extended

/-- The text of a number in a notation. -/
def render (n : Notation) : Extended → String
  | .finite x => x.render n
  | .infinite true => "-inf"
  | .infinite false => "inf"
  | .notANumber => "NaN"

/-- The number nearest to `digits · 10^exponent`. -/
def ofDecimal (negative : Bool) (digits : Nat) (exponent : Int) : Extended :=
  match Binary64.ofDecimal negative digits exponent with
  | some x => .finite x
  | none => .infinite negative

/-- The finite number, if it is one. -/
def finite? : Extended → Option Binary64
  | .finite x => some x
  | .infinite _ | .notANumber => none

/-- Whether a number is less than one of so many units `2^-1074`. What is not a number is less than
none. -/
def isBelow (units : Nat) : Extended → Bool
  | .finite x => decide (x.value < units)
  | .infinite negative => negative
  | .notANumber => false

end Extended

end StatesLang
