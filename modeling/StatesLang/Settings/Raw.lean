import StatesLang.Json.Basic
import StatesLang.Settings.Key

/-!
# Settings before their types are known

* `Settings.Raw`: what a source of settings gives.
* `Raw.ofJson`, `Raw.ofText`: values out of documents and out of plain texts.
* `Raw.assign`, `Raw.merge`: sets a member; groups are merged member by member.
* `Raw.set?`: sets a value at a place, if there is such a place.
* `Raw.toBool?`, `Raw.toNat?`, `Raw.toText?`: a value as the type that a setting has.
-/

namespace StatesLang.Settings

/-- A value of a setting, or of a group of settings. -/
inductive Raw
  | missing
  | boolean (b : Bool)
  | integer (n : Int64)
  | real (x : Extended)
  | text (s : String)
  | list (items : List Raw)
  | group (members : List (String × Raw))

namespace Raw

instance : Inhabited Raw := ⟨.missing⟩

/-! ## Values out of documents and texts -/

/-- A number of a document. Beyond the signed 64-bit integers it is a double. -/
def ofNumber (n : Json.Number) : Raw :=
  match n.int64? with
  | some i => .integer (Int64.ofInt i)
  | none => .real (.finite n.toBinary64)

mutual

/-- A document as a value. -/
def ofJson : Json → Raw
  | .null => .missing
  | .bool b => .boolean b
  | .number n => ofNumber n
  | .string s => .text s
  | .array items => .list (ofItems items)
  | .object members => .group (ofMembers members)

/-- The items of an array as values. -/
def ofItems : List Json → List Raw
  | [] => []
  | item :: rest => ofJson item :: ofItems rest

/-- The members of an object as values. -/
def ofMembers : List (String × Json) → List (String × Raw)
  | [] => []
  | (name, value) :: rest => (name, ofJson value) :: ofMembers rest

end

/-- A plain text as a value: a truth value in any case, an integer of 64 bits, a number, or else the
text itself. -/
def ofText (s : String) : Raw :=
  let cs := s.toList
  let word := cs.map Char.toLower
  if word = "true".toList then .boolean true
  else if word = "false".toList then .boolean false
  else
    match Literal.int64? cs with
    | some n => .integer n
    | none =>
      match Literal.extended? cs with
      | some x => .real x
      | none => .text s

/-! ## Parts of a value -/

/-- The members of a group. All else has none. -/
def members : Raw → List (String × Raw)
  | .group ms => ms
  | _ => []

/-- The items of a list. All else has none. -/
def items : Raw → List Raw
  | .list vs => vs
  | _ => []

/-- Sets a member: in its place if the name is there already, else at the end. -/
def put (name : String) (value : Raw) : List (String × Raw) → List (String × Raw)
  | [] => [(name, value)]
  | (k, v) :: rest => if k = name then (k, value) :: rest else (k, v) :: put name value rest

/-- The most items that a list of settings can have. -/
def maxItems : Nat := 0x1000000

/-- The position that an index stands for among so many items. There is none in front of the first
item, and none that would take too many items. -/
def position? (index : Int) (size : Nat) : Option Nat :=
  if 0 ≤ index then
    if index.toNat < maxItems then some index.toNat else none
  else if index.natAbs ≤ size then some (size - index.natAbs)
  else none

/-- Sets an item, with as many missing ones before it as it takes. -/
def putItem (i : Nat) (value : Raw) (items : List Raw) : List Raw :=
  (items ++ List.replicate (i + 1 - items.length) Raw.missing).set i value

mutual

/-- Sets a member of a value, which becomes a group if it is none. A group does not replace the
value that is there: its members are set one by one. -/
def assign (name : String) : Raw → Raw → Raw
  | .group incoming, target =>
    let key := lowerCase name
    let there := (target.members.lookup key).getD (.group [])
    .group (put key (merge incoming there) target.members)
  | value, target => .group (put (lowerCase name) value target.members)

/-- Sets all members of a group in a value. -/
def merge : List (String × Raw) → Raw → Raw
  | [], target => target
  | (name, value) :: rest, target => merge rest (assign name value target)

end

/-- Sets a part of a value. -/
def setStep? (value : Raw) : Step → Raw → Option Raw
  | .member name, target => some (assign name value target)
  | .item index, target => do
    let there := target.items
    let i ← position? index there.length
    return .list (putItem i value there)

/-- Changes a part of a value. A part that is not there is missing at first. -/
def alterStep? (f : Raw → Option Raw) : Step → Raw → Option Raw
  | .member name, target => do
    let key := lowerCase name
    let value ← f ((target.members.lookup key).getD .missing)
    return .group (put key value target.members)
  | .item index, target => do
    let there := target.items
    let i ← position? index there.length
    let value ← f (there[i]?.getD .missing)
    return .list (putItem i value there)

/-- Sets a value at a place. -/
def set? : (target : Raw) → Place → (value : Raw) → Option Raw
  | _, [], value => some value
  | target, [step], value => setStep? value step target
  | target, step :: rest, value => alterStep? (set? · rest value) step target

/-! ## Values as types -/

/-- The words for truth values, in lower case. -/
def wordBool? (word : List Char) : Option Bool :=
  if word = "true".toList ∨ word = "on".toList ∨ word = "yes".toList then some true
  else if word = "false".toList ∨ word = "off".toList ∨ word = "no".toList then some false
  else none

/-- A value as a truth value. A number is true unless it is zero. -/
def toBool? : Raw → Option Bool
  | .boolean b => some b
  | .integer n => some (n != 0)
  | .real (.finite x) => some !x.isZero
  | .real _ => some true
  | .text s =>
    let word := s.toList.map Char.toLower
    if word = ['1'] then some true
    else if word = ['0'] then some false
    else wordBool? word
  | .missing | .list _ | .group _ => none

/-- The natural number of 64 bits nearest to a number. What is not a number counts as zero. -/
def nearestNat : Extended → Nat
  | .finite x => min x.toNearestInt.toNat (0xffffffffffffffff)
  | .infinite negative => if negative then 0 else 0xffffffffffffffff
  | .notANumber => 0

/-- A value as a natural number of 64 bits. -/
def toNat? : Raw → Option Nat
  | .boolean b => some b.toNat
  | .integer n => if 0 ≤ n then some n.toInt.toNat else none
  | .real x => some (nearestNat x)
  | .text s =>
    match wordBool? (s.toList.map Char.toLower) with
    | some b => some b.toNat
    | none => (Literal.uint64? s.toList).map UInt64.toNat
  | .missing | .list _ | .group _ => none

/-- A value as a text. -/
def toText? : Raw → Option String
  | .boolean b => some (if b then "true" else "false")
  | .integer n => some (toString n.toInt)
  | .real x => some (x.render .setting)
  | .text s => some s
  | .missing | .list _ | .group _ => none

end Raw

end StatesLang.Settings
