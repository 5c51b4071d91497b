import StatesLang.Number.Literal

/-!
# Timestamps

A timestamp is a civil date and time with its distance from universal time, in whole minutes.

* `Timestamp.Fields`, `Timestamp`: the parts of a timestamp, and those that name a time.
* `Timestamp.compare`: the order of the instants.
* `Timestamp.parse?`: reads the Internet date and time format.
* `Timestamp.render`: writes it, with `Z` for universal time and as many thirds of nine fractional
  digits as are needed.
-/

namespace StatesLang

/-! ## Calendar -/

namespace Timestamp

/-- Whether a year has a 29th of February. -/
def isLeapYear (year : Nat) : Bool :=
  year % 4 == 0 && (year % 100 != 0 || year % 400 == 0)

/-- The number of days of a month. -/
def daysInMonth (year month : Nat) : Nat :=
  if month = 2 then if isLeapYear year then 29 else 28
  else if month = 4 ∨ month = 6 ∨ month = 9 ∨ month = 11 then 30
  else 31

/-- The number of days from the first day of year 0 to that of a year. -/
def daysBeforeYear (year : Nat) : Nat :=
  365 * year + (year + 3) / 4 - (year + 99) / 100 + (year + 399) / 400

/-- The number of days of a year before a month. -/
def daysBeforeMonth (year month : Nat) : Nat :=
  (List.range (month - 1)).foldl (fun n m => n + daysInMonth year (m + 1)) 0

/-- The parts of a timestamp. The offset counts the minutes that the clock is ahead of universal
time. -/
structure Fields where
  year : Nat
  month : Nat
  day : Nat
  hour : Nat
  minute : Nat
  second : Nat
  nanosecond : Nat
  offset : Int
deriving DecidableEq

/-- Whether the parts name a time. Any minute may have a leap second. -/
def Fields.IsValid (t : Fields) : Prop :=
  t.year ≤ 9999 ∧ 1 ≤ t.month ∧ t.month ≤ 12 ∧ 1 ≤ t.day ∧ t.day ≤ daysInMonth t.year t.month ∧
    t.hour ≤ 23 ∧ t.minute ≤ 59 ∧ t.second ≤ 60 ∧ t.nanosecond < 1000000000 ∧
    -1439 ≤ t.offset ∧ t.offset ≤ 1439

instance (t : Fields) : Decidable t.IsValid :=
  inferInstanceAs (Decidable (_ ∧ _))

end Timestamp

/-- A timestamp that a text can say. Years of more than four digits and before the year 0, and
offsets with seconds, are left out. -/
structure Timestamp extends Timestamp.Fields where
  valid : toFields.IsValid
deriving DecidableEq

namespace Timestamp

/-! ## Order -/

/-- The second, counted in universal time, in which the timestamp falls. A leap second belongs to
the second before it. -/
def instantSecond (t : Timestamp) : Int :=
  let days : Int := daysBeforeYear t.year + daysBeforeMonth t.year t.month + (t.day - 1)
  ((days * 24 + t.hour) * 60 + t.minute - t.offset) * 60 + min t.second 59

/-- The nanoseconds in that second. Those of a leap second go on counting. -/
def instantNanosecond (t : Timestamp) : Nat :=
  if t.second = 60 then t.nanosecond + 1000000000 else t.nanosecond

/-- Timestamps are ordered by their instants, wherever their clocks stand. -/
def compare (s t : Timestamp) : Ordering :=
  (Ord.compare s.instantSecond t.instantSecond).then
    (Ord.compare s.instantNanosecond t.instantNanosecond)

/-! ## Reading -/

/-- Reads so many digits. -/
def takeDigits? (count : Nat) (cs : List Char) : Option (Nat × List Char) :=
  let ds := cs.take count
  if ds.length = count ∧ ds.all Char.isDigit then
    some (Literal.digitsValue ds, cs.drop count)
  else none

/-- Reads one character out of a list. -/
def takeMark? (marks : List Char) : List Char → Option (List Char)
  | c :: rest => if c ∈ marks then some rest else none
  | [] => none

/-- Reads a fraction of a second, if there is one. Digits after the ninth do not count. -/
def takeFraction? : List Char → Option (Nat × List Char)
  | '.' :: cs =>
    let ds := (cs.takeWhile Char.isDigit).take 9
    if ds = [] then none
    else some (Literal.digitsValue ds * Nat.pow 10 (9 - ds.length), cs.dropWhile Char.isDigit)
  | cs => some (0, cs)

/-- Reads the distance from universal time. The sign may be a hyphen or a minus. -/
def takeOffset? : List Char → Option (Int × List Char)
  | c :: rest =>
    if c = 'Z' ∨ c = 'z' then some (0, rest)
    else if c = '+' ∨ c = '-' ∨ c = '−' then do
      let (hours, rest) ← takeDigits? 2 rest
      let rest ← takeMark? [':'] rest
      let (minutes, rest) ← takeDigits? 2 rest
      let total : Int := 60 * hours + minutes
      if 60 ≤ minutes then none
      else some (if c = '+' then total else -total, rest)
    else none
  | [] => none

/-- The timestamp that the parts name, if they name one. -/
def ofFields? (t : Fields) : Option Timestamp :=
  if h : t.IsValid then some ⟨t, h⟩ else none

/-- Reads a timestamp. Date and time are separated by a `T` or a blank. -/
def parse? (text : String) : Option Timestamp := do
  let (year, rest) ← takeDigits? 4 text.toList
  let rest ← takeMark? ['-'] rest
  let (month, rest) ← takeDigits? 2 rest
  let rest ← takeMark? ['-'] rest
  let (day, rest) ← takeDigits? 2 rest
  let rest ← takeMark? ['T', 't', ' '] rest
  let (hour, rest) ← takeDigits? 2 rest
  let rest ← takeMark? [':'] rest
  let (minute, rest) ← takeDigits? 2 rest
  let rest ← takeMark? [':'] rest
  let (second, rest) ← takeDigits? 2 rest
  let (nanosecond, rest) ← takeFraction? rest
  let (offset, rest) ← takeOffset? rest
  if rest = [] then ofFields? ⟨year, month, day, hour, minute, second, nanosecond, offset⟩
  else none

/-! ## Writing -/

/-- A number with at least so many digits. -/
def padded (width n : Nat) : List Char :=
  let ds := Nat.toDigits 10 n
  List.replicate (width - ds.length) '0' ++ ds

/-- A fraction of a second: none, or thousandths, millionths or billionths as needed. -/
def renderFraction (nanosecond : Nat) : List Char :=
  if nanosecond = 0 then []
  else if nanosecond % 1000000 = 0 then '.' :: padded 3 (nanosecond / 1000000)
  else if nanosecond % 1000 = 0 then '.' :: padded 6 (nanosecond / 1000)
  else '.' :: padded 9 nanosecond

/-- The distance from universal time. -/
def renderOffset (offset : Int) : List Char :=
  if offset = 0 then ['Z']
  else
    (if offset < 0 then '-' else '+') :: padded 2 (offset.natAbs / 60) ++
      ':' :: padded 2 (offset.natAbs % 60)

/-- The text of a timestamp. -/
def render (t : Timestamp) : String :=
  String.ofList <|
    padded 4 t.year ++ '-' :: padded 2 t.month ++ '-' :: padded 2 t.day ++
      'T' :: padded 2 t.hour ++ ':' :: padded 2 t.minute ++ ':' :: padded 2 t.second ++
      renderFraction t.nanosecond ++ renderOffset t.offset

end Timestamp

end StatesLang
