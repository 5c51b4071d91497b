import StatesLang.Json.Syntax
import StatesLang.Condition.Rule
import StatesLang.Text.Quoted

/-!
# Reading typed values

* `Decode.Found`, `Decode.Expectation`: what stands at a place, and what is wanted there.
* `Decode.Error`: why a value cannot be read, and its wording.
* `Decode.string`, `boolean`, `int64`, `size`, `double`: scalars.
* `Decode.optional`, `Decode.list`: values that may be null, and lists.
* `Decode.document`: any document but null.
-/

namespace StatesLang.Decode

open Json (Syntax Items Members)

/-- What stands at a place. -/
inductive Found
  | null
  | boolean (b : Bool)
  | integer (n : Int)
  | floating (x : Binary64)
  | string (s : String)
  | sequence
  | map
deriving DecidableEq

/-- What is wanted at a place. -/
inductive Expectation
  | string
  | boolean
  | int64
  | double
  | size
  | sequence
  | map
  | record (name : String)
  | tagged (name : String)
  | variantName
  | variantIndex (count : Nat)
  | elements (count : Nat)
  | fewerElements
deriving DecidableEq

/-- Why a value cannot be read. -/
inductive Error
  | malformed (e : SyntaxError)
  | invalidType (found : Found) (expected : Expectation)
  | invalidValue (found : Found) (expected : Expectation)
  | invalidLength (length : Nat) (expected : Expectation)
  | unknownVariant (name : String) (known : List String)
  | missingField (name : String)
  | duplicateField (name : String)
  | rule (d : ChoiceRule.Defect)
deriving DecidableEq

/-! ## Wording -/

/-- What was found, in messages. -/
def Found.message : Found → String
  | .null => "null"
  | .boolean true => "boolean `true`"
  | .boolean false => "boolean `false`"
  | .integer n => s!"integer `{n}`"
  | .floating x =>
    let text := x.render .document
    s!"floating point `{text}`"
  | .string s => "string " ++ Text.quote s
  | .sequence => "sequence"
  | .map => "map"

/-- What was wanted, in messages. -/
def Expectation.message : Expectation → String
  | .string => "a string"
  | .boolean => "a boolean"
  | .int64 => "i64"
  | .double => "f64"
  | .size => "usize"
  | .sequence => "a sequence"
  | .map => "a map"
  | .record name => "struct " ++ name
  | .tagged name => "internally tagged enum " ++ name
  | .variantName => "variant identifier"
  | .variantIndex count => s!"variant index 0 <= i < {count}"
  | .elements 1 => "1 element in sequence"
  | .elements count => s!"{count} elements in sequence"
  | .fewerElements => "fewer elements in array"

/-- The wording of an error. -/
def Error.message : Error → String
  | .malformed e => e.message
  | .invalidType found expected =>
    "invalid type: " ++ found.message ++ ", expected " ++ expected.message
  | .invalidValue found expected =>
    "invalid value: " ++ found.message ++ ", expected " ++ expected.message
  | .invalidLength length expected =>
    s!"invalid length {length}, expected " ++ expected.message
  | .unknownVariant name known =>
    s!"unknown variant `{name}`, expected one of " ++
      ", ".intercalate (known.map fun k => s!"`{k}`")
  | .missingField name => s!"missing field `{name}`"
  | .duplicateField name => s!"duplicate field `{name}`"
  | .rule d => d.message

/-! ## Scalars -/

/-- The error where something else is wanted. -/
def mismatch (expected : Expectation) : Syntax → Error
  | .null => .invalidType .null expected
  | .bool b => .invalidType (.boolean b) expected
  | .number (.int n) => .invalidType (.integer n.1) expected
  | .number (.real x) => .invalidType (.floating x) expected
  | .string s => .invalidType (.string s) expected
  | .array _ => .invalidType .sequence expected
  | .object _ => .invalidType .map expected
  | .fault f => .malformed f.wanted

/-- A text. -/
def string : Syntax → Except Error String
  | .string s => .ok s
  | s => .error (mismatch .string s)

/-- A truth value. -/
def boolean : Syntax → Except Error Bool
  | .bool b => .ok b
  | s => .error (mismatch .boolean s)

/-- A signed integer of 64 bits. -/
def int64 : Syntax → Except Error Int64
  | .number (.int n) =>
    if n.1 < 0x8000000000000000 then .ok (Int64.ofInt n.1)
    else .error (.invalidValue (.integer n.1) .int64)
  | s => .error (mismatch .int64 s)

/-- An unsigned integer of 64 bits. -/
def size : Syntax → Except Error Nat
  | .number (.int n) =>
    if 0 ≤ n.1 then .ok n.1.toNat else .error (.invalidValue (.integer n.1) .size)
  | s => .error (mismatch .size s)

/-- A double; integers are rounded. -/
def double : Syntax → Except Error Binary64
  | .number n => .ok n.toBinary64
  | s => .error (mismatch .double s)

/-! ## Null and lists -/

/-- A value that may be null. -/
def optional {α : Type} (read : Syntax → Except Error α) :
    Syntax → Except Error (Option α)
  | .null => .ok none
  | s => (read s).map some

/-- The items of an array, each read alike. -/
def items {α : Type} (read : Syntax → Except Error α) :
    Items → Except Error (List α)
  | .done => .ok []
  | .fault f => .error (.malformed f.wanted)
  | .more item rest => do
    let a ← read item
    let as ← items read rest
    return a :: as

/-- A list of values, each read alike. -/
def list {α : Type} (read : Syntax → Except Error α) :
    Syntax → Except Error (List α)
  | .array is => items read is
  | s => .error (mismatch .sequence s)

/-- Any document but null. -/
def document (s : Syntax) : Except Error Json :=
  match s with
  | .fault f => .error (.malformed f.wanted)
  | s => .ok s.toJson

end StatesLang.Decode
