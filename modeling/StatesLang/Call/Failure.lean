import StatesLang.Base64
import StatesLang.Json.Syntax
import StatesLang.Template.Check

/-!
# Why calls fail

* `Call.ArgumentKind`: what a function wants as an argument.
* `Call.Failure`: why a function gives no value, and its wording.
* `Call.Error`: what can come out of an expression instead of a value.
-/

namespace StatesLang.Call

/-- What a function wants as an argument. -/
inductive ArgumentKind
  | string
  | integer
  | array
  | object
  | boolean
  | scalar
deriving DecidableEq

/-- The name of what is wanted. -/
def ArgumentKind.label : ArgumentKind → String
  | .string => "a string"
  | .integer => "an integer"
  | .array => "an array"
  | .object => "an object"
  | .boolean => "a boolean"
  | .scalar => "a string, number, boolean or null"

/-- Why a function gives no value. Arguments are counted from zero. -/
inductive Failure
  | infiniteDecimal
  | unrootedPath
  | missingPath
  | arity (least : Nat) (most : Option Nat) (given : Nat)
  | argument (index : Nat) (wanted : ArgumentKind)
  | notTextOrCall
  | notPath
  | notJson (e : SyntaxError)
  | chunkSize
  | zeroStep
  | rangeTooLong (count : Int) (limit : Nat)
  | outOfBounds (index : Int) (length : Nat)
  | notBase64 (e : Base64.Error)
  | notText
  | unknownDigest (name : String)
  | emptyInterval (least most : Int)
  | notNumbers
  | overflow
  | notFinite
  | fewArguments (given : Nat)
  | fewPlaceholders (placeholders given : Nat)
deriving DecidableEq

/-- The number of arguments that a function takes. -/
def arityLabel (least : Nat) : Option Nat → String
  | none => s!"at least {least}"
  | some most => if least = most then s!"{least}" else s!"{least} to {most}"

/-- The wording of a failure. -/
def Failure.message : Failure → String
  | .infiniteDecimal => "decimal is not a finite number"
  | .unrootedPath => "path must start with '$' or '$$'"
  | .missingPath => "path does not exist in the document"
  | .arity least most given =>
    let expected := arityLabel least most
    s!"expected {expected} argument(s), got {given}"
  | .argument index wanted => s!"argument {index + 1} must be {wanted.label}"
  | .notTextOrCall => "argument must be a string literal or a function"
  | .notPath => "argument must be a path"
  | .notJson e => s!"argument is not valid JSON: {e.message}"
  | .chunkSize => "chunk size must be greater than zero"
  | .zeroStep => "step must not be zero"
  | .rangeTooLong count limit =>
    s!"range would produce {count} items, more than the limit of {limit}"
  | .outOfBounds index length =>
    s!"index {index} is out of bounds for an array of length {length}"
  | .notBase64 e => s!"argument is not valid base64: {e.message}"
  | .notText => "decoded bytes are not valid UTF-8"
  | .unknownDigest name =>
    s!"unsupported hash algorithm '{name}' (expected MD5, SHA-1, SHA-256, SHA-384 or SHA-512)"
  | .emptyInterval least most => s!"lower bound {least} is greater than upper bound {most}"
  | .notNumbers => "both arguments must be numbers"
  | .overflow => "integer overflow"
  | .notFinite => "result is not a finite number"
  | .fewArguments given =>
    s!"template has more placeholders than the {given} argument(s) given"
  | .fewPlaceholders placeholders given =>
    s!"template has {placeholders} placeholder(s) but {given} argument(s) were given"

/-- What can come out of an expression instead of a value. -/
inductive Error
  /-- The expression is no call. -/
  | malformed (text : String) (d : Defect)
  /-- A call, or one of its parameters, gives no value. -/
  | failed (text : String) (f : Failure)
  /-- No function has the name. -/
  | unknown (name : String)
  /-- A function refuses for a reason of its own. -/
  | refused (reason : String)
  /-- The functions call each other without end. -/
  | endless
  /-- The evaluation breaks off: an array would hold more items than memory has addresses for. -/
  | oversized
deriving DecidableEq

end StatesLang.Call
