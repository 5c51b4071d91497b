import StatesLang.Builtin.Argument
import StatesLang.Digest.Message
import StatesLang.Json.Combine

/-!
# Functions on arrays and objects

* `Builtin.makeArray`, `partition`, `contains`, `getItem`, `length`, `unique`: functions on arrays.
* `Builtin.range`: the numbers between two ends; `Builtin.capacity`: how many can be held at most.
* `Builtin.jsonMerge`: two objects in one.
-/

namespace StatesLang.Builtin

/-- The array of all arguments. -/
def makeArray : Handler := fun c s => do
  return .array (← s.resolveAll c)

/-- An array cut into pieces. -/
def partition : Handler := binary fun c a b => do
  let items ← array c 0 a
  let size ← integer c 1 b
  if size ≤ 0 then fail c .chunkSize
  else return .array ((Digest.split size.toNat items).map .array)

/-- Whether an array has an item of a value. -/
def contains : Handler := binary fun c a b => do
  let items ← array c 0 a
  return .bool (items.any (Json.sameValue · b))

/-- A signed integer among those of 128 bits, in which ranges are counted. -/
def widen (n : Int) : BitVec 128 :=
  .ofInt 128 n

/-- The number of steps from one number to another, both ends counted. -/
def rangeCount (start stop step : BitVec 128) : BitVec 128 :=
  if (BitVec.slt 0 step && start.sle stop) || (step.slt 0 && stop.sle start) then
    (stop - start).sdiv step + 1
  else 0

/-- The number that so many steps lead to. -/
def rangeItem (start step index : BitVec 128) : Int64 :=
  .ofBitVec ((start + index * step).setWidth 64)

/-- The numbers from one end to the other, by a step. -/
def rangeItems (start step : BitVec 128) (count : Nat) : List Json :=
  (List.range count).map fun k => .number (.ofInt (rangeItem start step (.ofNat 128 k)).toInt)

/-- The most items that an array can have: each takes 72 bytes, and all of them less than half of
the addresses of 64 bits. -/
def capacity : Nat :=
  0x7fffffffffffffff / 72

/-- The array of the numbers from one end to the other, by a step. -/
def range : Handler := ternary fun c limits a b d => do
  let start := widen (← integer c 0 a)
  let stop := widen (← integer c 1 b)
  let step := widen (← integer c 2 d)
  let count := (rangeCount start stop step).toInt
  if step = 0 then fail c .zeroStep
  else if (limits.maxArrayRangeItems : Int) < count then
    fail c (.rangeTooLong count limits.maxArrayRangeItems)
  else if (capacity : Int) < count then .error .oversized
  else return .array (rangeItems start step count.toNat)

/-- The item of an array at an index. -/
def getItem : Handler := binary fun c a b => do
  let items ← array c 0 a
  let index ← integer c 1 b
  match if 0 ≤ index then items[index.toNat]? else none with
  | some item => return item
  | none => fail c (.outOfBounds index items.length)

/-- The number of items of an array. -/
def length : Handler := unary fun c a => do
  let items ← array c 0 a
  return .number (.ofInt items.length)

/-- An array without the items whose value came before. -/
def unique : Handler := unary fun c a => do
  let items ← array c 0 a
  return .array (Json.distinct items)

/-- Two objects in one. -/
def jsonMerge : Handler := ternary fun c _ a b d => do
  let left ← object c 0 a
  let right ← object c 1 b
  let deep ← boolean c 2 d
  return .object (Json.merge deep left right)

end StatesLang.Builtin
