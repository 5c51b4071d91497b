import StatesLang.Decode.Value
import StatesLang.Json.Reader

/-!
# Reading records

A record is an object with known members, in any order, or an array with their values in the order
of declaration. Unknown members are skipped, members that are left out keep their initial value.

* `Decode.Origin`: where a value comes from, which decides what is said about elements left over.
* `Decode.RecordShape`: the fields of a record and their keys.
* `Decode.readRecord`: reads the fields in the order in which they stand.
* `Decode.wholeText`: reads a value that takes up a whole text.
-/

namespace StatesLang.Decode

open Json (Syntax Items Members)

/-- Where a value comes from: from a text with room for so many levels, from a value that was kept
until its type was known, or from a document. -/
inductive Origin
  | text (room : Nat)
  | kept
  | document
deriving DecidableEq

/-- The origin of the parts of an array or an object. -/
def Origin.inner : Origin → Except Error Origin
  | .text room => if room ≤ 1 then .error (.malformed .recursionLimit) else .ok (.text (room - 1))
  | o => .ok o

/-- The faults of a value that is kept. Only texts have faults. -/
def Origin.check (o : Origin) (s : Syntax) : Except Error Unit :=
  match o with
  | .text room => (s.check room).mapError .malformed
  | .kept | .document => .ok ()

/-- The faults of items that are kept. -/
def Origin.checkItems (o : Origin) (items : Items) : Except Error Unit :=
  match o with
  | .text room => (items.check room).mapError .malformed
  | .kept | .document => .ok ()

/-- Refuses the items that are left over after so many. -/
def Origin.surplus (o : Origin) (taken : Nat) (items : Items) : Except Error Unit :=
  match o, items with
  | _, .done => .ok ()
  | .text _, .fault ⟨.endInList, _⟩ => .error (.malformed .endInList)
  | .text _, .fault ⟨.trailingComma, _⟩ => .error (.malformed .trailingComma)
  | .text _, _ => .error (.malformed .trailingCharacters)
  | .kept, items => .error (.invalidLength (taken + items.length) (.elements taken))
  | .document, items => .error (.invalidLength (taken + items.length) .fewerElements)

/-- The fields of a record, in the order of declaration, with the key that messages name and all
keys that are known. -/
structure RecordShape (φ : Type) where
  name : String
  order : List φ
  key : φ → String
  ofKey? : String → Option φ

variable {φ ρ : Type} [DecidableEq φ]

/-- Reads the fields that the members of an object hold. `bound` limits the size of the values, for
readers of records inside records. -/
def readMembers (shape : RecordShape φ) (bound : Nat)
    (set : ρ → φ → (value : Syntax) → sizeOf value < bound → Except Error ρ) :
    (members : Members) → sizeOf members < bound → List φ → ρ → Except Error ρ
  | .done, _, _, r => .ok r
  | .fault f, _, _, _ => .error (.malformed f.wanted)
  | .more key value rest, h, seen, r => do
    let name ← key.name?.mapError .malformed
    match shape.ofKey? name with
    | none => do
      value.skip.mapError .malformed
      readMembers shape bound set rest (by simp at h; omega) seen r
    | some f =>
      if f ∈ seen then .error (.duplicateField (shape.key f))
      else do
        let r ← set r f value (by simp at h; omega)
        readMembers shape bound set rest (by simp at h; omega) (f :: seen) r

/-- Reads the fields that the items of an array hold, and what is left of the items. -/
def readItems (bound : Nat)
    (set : ρ → φ → (value : Syntax) → sizeOf value < bound → Except Error ρ) :
    (items : Items) → sizeOf items < bound → List φ → ρ → Except Error (ρ × Items)
  | items, _, [], r => .ok (r, items)
  | .done, _, _ :: _, r => .ok (r, .done)
  | .fault f, _, _ :: _, _ => .error (.malformed f.wanted)
  | .more item rest, h, f :: fs, r => do
    let r ← set r f item (by simp at h; omega)
    readItems bound set rest (by simp at h; omega) fs r

/-- Reads a record, starting from its initial value. -/
def readRecord (origin : Origin) (shape : RecordShape φ) (r : ρ) (s : Syntax)
    (set : Origin → ρ → φ → (value : Syntax) → sizeOf value < sizeOf s → Except Error ρ) :
    Except Error ρ :=
  match s, set with
  | .object members, set => do
    let inner ← origin.inner
    readMembers shape _ (set inner) members (by simp) [] r
  | .array items, set => do
    let inner ← origin.inner
    let (r, rest) ← readItems _ (set inner) items (by simp) shape.order r
    origin.surplus shape.order.length rest
    return r
  | s, _ => .error (mismatch (.record shape.name) s)

/-- Reads a value that takes up a whole text. -/
def wholeText {α : Type} (text : String) (read : Origin → Syntax → Except Error α) :
    Except Error α := do
  let outline := Json.Text.read text
  let a ← read (.text Json.nestingLimit) outline.root
  if outline.trailing then .error (.malformed .trailingCharacters) else .ok a

end StatesLang.Decode
