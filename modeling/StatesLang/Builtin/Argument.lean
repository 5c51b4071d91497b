import StatesLang.Registry.Basic

/-!
# Arguments of functions

* `Builtin.fail`: a failure of a call, with the text of the call.
* `Builtin.arguments`: the values of the parameters, if there are as many as the function takes.
* `Builtin.unary`, `binary`, `ternary`: functions of one, two and three values.
* `Builtin.string`, `integer`, `array`, `object`, `boolean`: an argument of a kind.
-/

namespace StatesLang.Builtin

/-- A failure of a call. -/
def fail {α : Type} (c : Call) (f : Call.Failure) : Except Call.Error α :=
  .error (.failed c.render f)

/-- Whether a number of parameters is one that a function takes. -/
def takes (least : Nat) (most : Option Nat) (given : Nat) : Bool :=
  least ≤ given && most.all (given ≤ ·)

/-- The values of the parameters, if there are as many as the function takes. -/
def arguments (least : Nat) (most : Option Nat) (c : Call) (s : Handler.Scope) :
    Except Call.Error (List Json) :=
  if takes least most c.params.length then s.resolveAll c
  else fail c (.arity least most c.params.length)

/-- A function of one value. -/
def unary (f : Call → Json → Except Call.Error Json) : Handler := fun c s => do
  match ← arguments 1 (some 1) c s with
  | [a] => f c a
  | values => fail c (.arity 1 (some 1) values.length)

/-- A function of two values. -/
def binary (f : Call → Json → Json → Except Call.Error Json) : Handler := fun c s => do
  match ← arguments 2 (some 2) c s with
  | [a, b] => f c a b
  | values => fail c (.arity 2 (some 2) values.length)

/-- A function of three values. -/
def ternary (f : Call → Settings.Calls → Json → Json → Json → Except Call.Error Json) :
    Handler := fun c s => do
  match ← arguments 3 (some 3) c s with
  | [a, b, d] => f c s.limits a b d
  | values => fail c (.arity 3 (some 3) values.length)

/-- An argument that must be a text. -/
def string (c : Call) (index : Nat) : Json → Except Call.Error String
  | .string s => .ok s
  | _ => fail c (.argument index .string)

/-- An argument that must be a signed integer of 64 bits. -/
def integer (c : Call) (index : Nat) : Json → Except Call.Error Int
  | .number n =>
    match n.int64? with
    | some i => .ok i
    | none => fail c (.argument index .integer)
  | _ => fail c (.argument index .integer)

/-- An argument that must be an array. -/
def array (c : Call) (index : Nat) : Json → Except Call.Error (List Json)
  | .array items => .ok items
  | _ => fail c (.argument index .array)

/-- An argument that must be an object. -/
def object (c : Call) (index : Nat) : Json → Except Call.Error (List (String × Json))
  | .object members => .ok members
  | _ => fail c (.argument index .object)

/-- An argument that must be a truth value. -/
def boolean (c : Call) (index : Nat) : Json → Except Call.Error Bool
  | .bool b => .ok b
  | _ => fail c (.argument index .boolean)

end StatesLang.Builtin
