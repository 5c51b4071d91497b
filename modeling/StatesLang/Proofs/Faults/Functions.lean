import StatesLang.Builtin.Standard
import StatesLang.Proofs.Faults.Operations

/-!
# Functions with operations that can fault

The standard functions once more, step by step: which checks they make of a call, and which
operations follow. Arguments are taken out of the list of values by their index, and numbers are
cast and computed with so many bits. An operation that does not meet with what it needs stops the
evaluation.

* `Checked.Scope`, `Checked.Handler`: functions that can be stopped, and what they are handed.
* `Checked.format`, ..., `Checked.uuid`: the standard functions.
* `Checked.standard`, `Checked.call`: the functions by name, and the evaluation of calls.
-/

namespace StatesLang.Checked

open Builtin (takes)

/-- What a function can ask for. Evaluating a parameter can be stopped, too. -/
structure Scope where
  limits : Settings.Calls
  entropy : UInt64
  resolve : Nat → Call.Param → Checked Json

/-- A function that can be stopped. -/
abbrev Handler := Call → Scope → Checked Json

/-! ## Parameters -/

/-- The values of parameters, from a position on. -/
def Scope.resolveFrom (s : Scope) (position : Nat) : List Call.Param → Checked (List Json)
  | [] => pure []
  | p :: ps => do
    let v ← s.resolve position p
    let vs ← s.resolveFrom (position + 1) ps
    return v :: vs

/-- Refuses a call with more or fewer parameters than the function takes. -/
def checkArity (least : Nat) (most : Option Nat) (c : Call) : Checked Unit :=
  if takes least most c.params.length then pure () else fail c (.arity least most c.params.length)

/-- The values of the parameters, if there are as many as the function takes. -/
def arguments (least : Nat) (most : Option Nat) (c : Call) (s : Scope) : Checked (List Json) := do
  checkArity least most c
  s.resolveFrom 0 c.params

/-- A text among the values. -/
def string (c : Call) (values : List Json) (index : Nat) : Checked String := do
  ofOutcome (Builtin.string c index (← item values index))

/-- A signed integer of 64 bits among the values. -/
def integer (c : Call) (values : List Json) (index : Nat) : Checked Int := do
  ofOutcome (Builtin.integer c index (← item values index))

/-- An array among the values. -/
def array (c : Call) (values : List Json) (index : Nat) : Checked (List Json) := do
  ofOutcome (Builtin.array c index (← item values index))

/-- An object among the values. -/
def object (c : Call) (values : List Json) (index : Nat) : Checked (List (String × Json)) := do
  ofOutcome (Builtin.object c index (← item values index))

/-- A truth value among the values. -/
def boolean (c : Call) (values : List Json) (index : Nat) : Checked Bool := do
  ofOutcome (Builtin.boolean c index (← item values index))

/-! ## Texts -/

/-- A template with the other arguments filled in. -/
def format : Handler := fun c s => do
  let values ← arguments 1 none c s
  let template ← string c values 0
  let args ← itemsFrom values 1
  match Format.fill args.length 0 (Format.pieces template.toList) args with
  | .ok cs => return .string (String.ofList (Format.unescape cs))
  | .error f => fail c f

/-- The document that a text holds. -/
def stringToJson : Handler := fun c s => do
  checkArity 1 (some 1) c
  match ← item c.params 0 with
  | .string _ | .call _ => do
    let value ← s.resolve 0 (← item c.params 0)
    let text ← ofOutcome (Builtin.string c 0 value)
    match Json.parse? text with
    | .ok value => return value
    | .error e => fail c (.notJson e)
  | _ => fail c .notTextOrCall

/-- The text of a document at a path. -/
def jsonToString : Handler := fun c s => do
  checkArity 1 (some 1) c
  match ← item c.params 0 with
  | .path _ => do
    let value ← s.resolve 0 (← item c.params 0)
    return .string value.compact
  | _ => fail c .notPath

/-- The bytes of a text in Base64. -/
def base64Encode : Handler := fun c s => do
  let values ← arguments 1 (some 1) c s
  let text ← string c values 0
  return .string (Base64.encode (Builtin.bytesOf text))

/-- The text whose bytes are given in Base64. -/
def base64Decode : Handler := fun c s => do
  let values ← arguments 1 (some 1) c s
  let text ← string c values 0
  match Base64.decode (Builtin.bytesOf text) with
  | .error e => fail c (.notBase64 e)
  | .ok bytes =>
    match String.fromUTF8? ⟨bytes.toArray⟩ with
    | some s => return .string s
    | none => fail c .notText

/-- The digest of a value, in hexadecimal. -/
def hash : Handler := fun c s => do
  let values ← arguments 2 (some 2) c s
  let data := Builtin.digestedText (← item values 0)
  let name ← string c values 1
  match Builtin.digests.lookup name with
  | some digest => return .string (Digest.hex (digest (Builtin.bytesOf data)))
  | none => fail c (.unknownDigest name)

/-- The pieces of a text that are not empty. -/
def stringSplit : Handler := fun c s => do
  let values ← arguments 2 (some 2) c s
  let text ← string c values 0
  let delimiters ← string c values 1
  let pieces := Builtin.splitAtChars delimiters.toList [] text.toList
  return .array ((pieces.filter (· ≠ [])).map fun p => .string (String.ofList p))

/-! ## Arrays and objects -/

/-- The array of all arguments. -/
def makeArray : Handler := fun c s => do
  return .array (← s.resolveFrom 0 c.params)

/-- An array cut into pieces. -/
def partition : Handler := fun c s => do
  let values ← arguments 2 (some 2) c s
  let items ← array c values 0
  let size ← integer c values 1
  if size ≤ 0 then fail c .chunkSize
  else do
    let size ← cast .size size
    return .array ((← pieces size.toNat items).map .array)

/-- Whether an array has an item of a value. -/
def contains : Handler := fun c s => do
  let values ← arguments 2 (some 2) c s
  let items ← array c values 0
  let wanted ← item values 1
  return .bool (items.any (Json.sameValue · wanted))

/-- The number of steps from one number to another, both ends counted. -/
def rangeCount (start stop step : Int) : Checked Int :=
  if (0 < step ∧ start ≤ stop) ∨ (step < 0 ∧ stop ≤ start) then do
    let distance ← sub .int128 stop start
    let quotient ← div .int128 distance step
    add .int128 quotient 1
  else pure 0

/-- The number that so many steps lead to. -/
def rangeItem (start step : Int) (index : Nat) : Checked Json := do
  let way ← mul .int128 index step
  let place ← add .int128 start way
  return .number (.ofInt (← cast .int64 place))

/-- The array of the numbers from one end to the other, by a step. -/
def range : Handler := fun c s => do
  let values ← arguments 3 (some 3) c s
  let start ← cast .int128 (← integer c values 0)
  let stop ← cast .int128 (← integer c values 1)
  let step ← cast .int128 (← integer c values 2)
  if step = 0 then fail c .zeroStep
  else do
    let count ← rangeCount start stop step
    let limit ← cast .int128 s.limits.maxArrayRangeItems
    if limit < count then fail c (.rangeTooLong count s.limits.maxArrayRangeItems)
    else do
      allot count.toNat
      return .array (← (List.range count.toNat).mapM (rangeItem start step))

/-- The item of an array at an index. -/
def getItem : Handler := fun c s => do
  let values ← arguments 2 (some 2) c s
  let items ← array c values 0
  let index ← integer c values 1
  match if 0 ≤ index then items[index.toNat]? else none with
  | some item => return item
  | none => fail c (.outOfBounds index items.length)

/-- The number of items of an array. -/
def length : Handler := fun c s => do
  let values ← arguments 1 (some 1) c s
  let items ← array c values 0
  return .number (.ofInt items.length)

/-- An array without the items whose value came before. -/
def unique : Handler := fun c s => do
  let values ← arguments 1 (some 1) c s
  let items ← array c values 0
  return .array (Json.distinct items)

/-- Two objects in one. -/
def jsonMerge : Handler := fun c s => do
  let values ← arguments 3 (some 3) c s
  let left ← object c values 0
  let right ← object c values 1
  let deep ← boolean c values 2
  return .object (Json.merge deep left right)

/-! ## Numbers and chance -/

/-- The sum of two numbers. -/
def mathAdd : Handler := fun c s => do
  let values ← arguments 2 (some 2) c s
  match ← item values 0, ← item values 1 with
  | .number x, .number y =>
    match Builtin.sum x y with
    | .ok z => return .number z
    | .error f => fail c f
  | _, _ => fail c .notNumbers

/-- A random number between two bounds. A seed fixes the number. -/
def mathRandom : Handler := fun c s => do
  let values ← arguments 2 (some 3) c s
  let least ← integer c values 0
  let most ← integer c values 1
  if most < least then fail c (.emptyInterval least most)
  else
    match values[2]? with
    | some seed => do
      let seed ← ofOutcome (Builtin.integer c 2 seed)
      drawn (Int64.ofInt seed).toUInt64 least most
    | none => drawn s.entropy least most

/-- A random identifier. -/
def uuid : Handler := fun c s => do
  checkArity 0 (some 0) c
  return .string (Builtin.identifier s.entropy)

/-! ## Evaluation -/

/-- The standard functions by name. -/
def standard : List (String × Handler) :=
  [("States.Format", format), ("States.StringToJson", stringToJson),
    ("States.JsonToString", jsonToString), ("States.Array", makeArray),
    ("States.ArrayPartition", partition), ("States.ArrayContains", contains),
    ("States.ArrayRange", range), ("States.ArrayGetItem", getItem),
    ("States.ArrayLength", length), ("States.ArrayUnique", unique),
    ("States.Base64Encode", base64Encode), ("States.Base64Decode", base64Decode),
    ("States.Hash", hash), ("States.JsonMerge", jsonMerge), ("States.MathRandom", mathRandom),
    ("States.MathAdd", mathAdd), ("States.StringSplit", stringSplit), ("States.UUID", uuid)]

/-- The value of a parameter, calls given. -/
def resolveParam (sources : Path.Sources) (call : Call → Checked Json) :
    Call.Param → Checked Json
  | .null => pure .null
  | .boolean b => pure (.bool b)
  | .string s => pure (.string s)
  | .int n => pure (.number (.ofInt n.toInt))
  | .decimal x => ofOutcome (Registry.resolveDecimal x)
  | .path text => ofOutcome (Registry.resolvePath sources text)
  | .call c => call c

/-- The value of a call of a standard function. The fuel bounds how deep functions call each
other. -/
def invoke (limits : Settings.Calls) (sources : Path.Sources) :
    Nat → UInt64 → Call → Checked Json
  | 0, _, _ => ofOutcome (.error .endless)
  | fuel + 1, entropy, c =>
    match standard.lookup c.name with
    | none => ofOutcome (.error (.unknown c.name))
    | some h =>
      h c ⟨limits, entropy, fun position =>
        resolveParam sources (invoke limits sources fuel (Handler.inner entropy position))⟩

/-- The value of a call, with as much fuel as its evaluation is given. -/
def call (limits : Settings.Calls) (entropy : UInt64) (c : Call) (sources : Path.Sources) :
    Checked Json :=
  invoke limits sources ((Registry.standard limits).callDepth c) entropy c

end StatesLang.Checked
