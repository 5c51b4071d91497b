import StatesLang.Builtin.Format
import StatesLang.Builtin.Lists
import StatesLang.Builtin.Text
import StatesLang.Random.ChaCha

/-!
# The standard functions

* `Builtin.sum`, `Builtin.mathAdd`: the sum of two numbers.
* `Builtin.mathRandom`: a random number between two bounds; `Builtin.uuid`: a random identifier.
* `Builtin.standard`: the standard functions by name.
* `Registry.standard`: a registry of them, with limits.
-/

namespace StatesLang

namespace Builtin

/-! ## Numbers and chance -/

/-- The sum of two numbers. That of two signed integers is exact or fails; any other is rounded. -/
def sum (x y : Json.Number) : Except Call.Failure Json.Number :=
  match x.int64?, y.int64? with
  | some a, some b =>
    if -0x8000000000000000 ≤ a + b ∧ a + b < 0x8000000000000000 then .ok (.ofInt (a + b))
    else .error .overflow
  | _, _ =>
    match x.toBinary64.add y.toBinary64 with
    | some z => .ok (.real z)
    | none => .error .notFinite

/-- The sum of two numbers. -/
def mathAdd : Handler := binary fun c a b =>
  match a, b with
  | .number x, .number y =>
    match sum x y with
    | .ok z => return .number z
    | .error f => fail c f
  | _, _ => fail c .notNumbers

/-- A number between two bounds, out of the stream of a seed. -/
def randomBetween (seed : UInt64) (least most : Int) : Json :=
  .number (.ofInt (Random.inRange seed (Int64.ofInt least) (Int64.ofInt most)).toInt)

/-- A random number between two bounds. A seed fixes the number. -/
def mathRandom : Handler := fun c s => do
  let values ← arguments 2 (some 3) c s
  match values with
  | a :: b :: rest => do
    let least ← integer c 0 a
    let most ← integer c 1 b
    if most < least then fail c (.emptyInterval least most)
    else
      match rest with
      | [] => return randomBetween s.entropy least most
      | seed :: _ => do
        let n ← integer c 2 seed
        return randomBetween (Int64.ofInt n).toUInt64 least most
  | _ => fail c (.arity 2 (some 3) values.length)

/-- An identifier of 16 bytes, in which six bits say that it is random. -/
def identifier (seed : UInt64) : String :=
  let key := ChaCha.Key.ofSeed seed
  let high := ((ChaCha.draw key 0) &&& 0xffffffffffff0fff) ||| 0x4000
  let low := ((ChaCha.draw key 1) &&& 0x3fffffffffffffff) ||| 0x8000000000000000
  let text := (Digest.hex (Digest.bigEndian 8 high.toNat ++ Digest.bigEndian 8 low.toNat)).toList
  "-".intercalate <|
    [text.take 8, (text.drop 8).take 4, (text.drop 12).take 4, (text.drop 16).take 4,
      text.drop 20].map String.ofList

/-- A random identifier. -/
def uuid : Handler := fun c s => do
  let _ ← arguments 0 (some 0) c s
  return .string (identifier s.entropy)

/-! ## The functions by name -/

/-- The standard functions by name. -/
def standard : List (String × Handler) :=
  [("States.Format", format), ("States.StringToJson", stringToJson),
    ("States.JsonToString", jsonToString), ("States.Array", makeArray),
    ("States.ArrayPartition", partition), ("States.ArrayContains", contains),
    ("States.ArrayRange", range), ("States.ArrayGetItem", getItem),
    ("States.ArrayLength", length), ("States.ArrayUnique", unique),
    ("States.Base64Encode", base64Encode), ("States.Base64Decode", base64Decode),
    ("States.Hash", hash), ("States.JsonMerge", jsonMerge), ("States.MathRandom", mathRandom),
    ("States.MathAdd", mathAdd), ("States.StringSplit", stringSplit), ("States.UUID", uuid)]

end Builtin

/-- The standard functions, with limits. -/
def Registry.standard (limits : Settings.Calls) : Registry :=
  ⟨Builtin.standard, limits⟩

end StatesLang
