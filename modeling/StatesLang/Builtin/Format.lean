import StatesLang.Builtin.Argument

/-!
# Filling in templates

* `Format.Piece`, `Format.pieces`: a template as literal characters and placeholders.
* `Format.fill`: the template with the arguments in the places of the placeholders.
* `Format.unescape`: braces without their backslashes.
* `Builtin.format`: the function.
-/

namespace StatesLang

namespace Format

/-- A part of a template. -/
inductive Piece
  | literal (cs : List Char)
  | placeholder
deriving DecidableEq

/-- The parts of a template. A backslash takes the next character with it, so that the braces of a
placeholder are not escaped. -/
def pieces : List Char → List Piece
  | [] => []
  | ['\\'] => [.literal ['\\']]
  | '\\' :: c :: rest => .literal ['\\', c] :: pieces rest
  | '\x7b' :: '\x7d' :: rest => .placeholder :: pieces rest
  | c :: rest => .literal [c] :: pieces rest

/-- The text of an argument. Arrays and objects have none. -/
def scalarText? : Json → Option (List Char)
  | .string s => some s.toList
  | .number n => some n.render.toList
  | .bool true => some ['t', 'r', 'u', 'e']
  | .bool false => some ['f', 'a', 'l', 's', 'e']
  | .null => some ['n', 'u', 'l', 'l']
  | .array _ | .object _ => none

/-- The template with arguments filled in, from an index on, or the failure: an argument without
text, or too few or too many arguments. `given` is their number. -/
def fill (given : Nat) (index : Nat) : List Piece → List Json → Except Call.Failure (List Char)
  | [], [] => .ok []
  | [], _ :: _ => .error (.fewPlaceholders index given)
  | .literal cs :: rest, args => do
    let out ← fill given index rest args
    return cs ++ out
  | .placeholder :: _, [] => .error (.fewArguments given)
  | .placeholder :: rest, a :: args =>
    match scalarText? a with
    | none => .error (.argument (index + 1) .scalar)
    | some cs => do
      let out ← fill given (index + 1) rest args
      return cs ++ out

/-- Drops the backslashes before braces. -/
def unescape : List Char → List Char
  | '\\' :: c :: rest =>
    if c = '\x7b' ∨ c = '\x7d' then c :: unescape rest else '\\' :: unescape (c :: rest)
  | c :: rest => c :: unescape rest
  | [] => []
termination_by cs => cs.length

end Format

namespace Builtin

/-- A template with the other arguments filled in. -/
def format : Handler := fun c s => do
  match ← arguments 1 none c s with
  | template :: args => do
    let text ← string c 0 template
    match Format.fill args.length 0 (Format.pieces text.toList) args with
    | .ok cs => return .string (String.ofList (Format.unescape cs))
    | .error f => fail c f
  | [] => fail c (.arity 1 none 0)

end Builtin

end StatesLang
