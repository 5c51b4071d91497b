import StatesLang.Number.Extended

/-!
# Number literals

* `Literal.natural?`, `Literal.integer?`: decimal digits, with a sign where one is allowed.
* `Literal.int64?`, `Literal.uint64?`: the same within 64 bits.
* `Literal.decimal?`: a decimal fraction with an optional exponent, rounded to the nearest double.
* `Literal.extended?`: a decimal fraction or the name of a number that is not finite.
-/

namespace StatesLang.Literal

/-- The value of a digit. -/
def digitValue (c : Char) : Nat :=
  c.toNat - '0'.toNat

/-- The number that a list of digits writes. -/
def digitsValue (ds : List Char) : Nat :=
  ds.foldl (fun n d => 10 * n + digitValue d) 0

/-- A non-empty list of digits. -/
def natural? (cs : List Char) : Option Nat :=
  if cs ≠ [] ∧ cs.all Char.isDigit then some (digitsValue cs) else none

/-- A sign, if there is one, and what follows it. -/
def splitSign : List Char → Bool × List Char
  | '-' :: cs => (true, cs)
  | '+' :: cs => (false, cs)
  | cs => (false, cs)

/-- Digits with an optional sign. -/
def integer? (cs : List Char) : Option Int :=
  let (negative, ds) := splitSign cs
  (natural? ds).map fun n => if negative then -(n : Int) else n

/-- A signed integer of 64 bits. -/
def int64? (cs : List Char) : Option Int64 :=
  match integer? cs with
  | some n =>
    if -0x8000000000000000 ≤ n ∧ n < 0x8000000000000000 then some (Int64.ofInt n) else none
  | none => none

/-- An unsigned integer of 64 bits. It may carry a plus sign. -/
def uint64? (cs : List Char) : Option UInt64 :=
  let ds := match cs with
    | '+' :: rest => rest
    | _ => cs
  match natural? ds with
  | some n => if n < 0x10000000000000000 then some (UInt64.ofNat n) else none
  | none => none

/-- The exponent part of a decimal: nothing, or `e` and a signed integer. -/
def exponent? : List Char → Option Int
  | [] => some 0
  | c :: cs => if c = 'e' ∨ c = 'E' then integer? cs else none

/-- The part of a decimal from the point on: its digits and its exponent. -/
def fraction? : List Char → Option (List Char × Int)
  | '.' :: cs => (exponent? (cs.dropWhile Char.isDigit)).map (cs.takeWhile Char.isDigit, ·)
  | cs => (exponent? cs).map ([], ·)

/-- An unsigned decimal: digits with an optional point among or around them, and an exponent. -/
def magnitude? (negative : Bool) (cs : List Char) : Option Extended :=
  let whole := cs.takeWhile Char.isDigit
  match fraction? (cs.dropWhile Char.isDigit) with
  | some (fraction, exponent) =>
    if whole = [] ∧ fraction = [] then none
    else
      some (.ofDecimal negative (digitsValue (whole ++ fraction)) (exponent - fraction.length))
  | none => none

/-- A decimal with an optional sign, rounded to the nearest double. -/
def decimal? (cs : List Char) : Option Extended :=
  let (negative, rest) := splitSign cs
  magnitude? negative rest

/-- A decimal or, in any case, `inf`, `infinity` or `nan`. -/
def extended? (cs : List Char) : Option Extended :=
  let (negative, rest) := splitSign cs
  let name := rest.map Char.toLower
  if name = ['i', 'n', 'f'] ∨ name = ['i', 'n', 'f', 'i', 'n', 'i', 't', 'y'] then
    some (.infinite negative)
  else if name = ['n', 'a', 'n'] then some .notANumber
  else magnitude? negative rest

end StatesLang.Literal
