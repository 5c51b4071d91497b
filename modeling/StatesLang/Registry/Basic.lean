import StatesLang.Call.Failure
import StatesLang.Path.Scoped
import StatesLang.Settings.Basic
import StatesLang.Text.Quoted

/-!
# Functions and calls

A function gets the call as it stands and resolves its parameters itself.

* `Handler`: a function; `Handler.Scope`: what it can ask for.
* `Registry`: functions by name, with limits.
* `Registry.invoke`: the value of a call; `Registry.call`, `Registry.evaluate`: the value of a call
  and of an expression over two documents.
-/

namespace StatesLang

/-- What a function can ask for. -/
structure Handler.Scope where
  sources : Path.Sources
  limits : Settings.Calls
  /-- What makes random results differ from those of other calls. -/
  entropy : UInt64
  /-- The value of a parameter. Random parameters at different positions have different values. -/
  resolve : Nat → Call.Param → Except Call.Error Json

/-- A function: what it makes of a call. -/
abbrev Handler := Call → Handler.Scope → Except Call.Error Json

namespace Handler

/-- The entropy for the parameter at a position. -/
def inner (entropy : UInt64) (position : Nat) : UInt64 :=
  (entropy + UInt64.ofNat position + 1) * 6364136223846793005 + 11634580027462260723

/-- The values of parameters, from a position on. -/
def Scope.resolveFrom (s : Scope) (position : Nat) : List Call.Param → Except Call.Error (List Json)
  | [] => .ok []
  | p :: ps => do
    let v ← s.resolve position p
    let vs ← s.resolveFrom (position + 1) ps
    return v :: vs

/-- The values of all parameters of a call, in order. -/
def Scope.resolveAll (s : Scope) (c : Call) : Except Call.Error (List Json) :=
  s.resolveFrom 0 c.params

end Handler

/-- Functions by name, and the limits of their calls. -/
structure Registry where
  functions : List (String × Handler)
  limits : Settings.Calls

namespace Registry

/-- A registry without functions. -/
def empty : Registry := ⟨[], {}⟩

/-- The function with a name. -/
def find? (r : Registry) (name : String) : Option Handler :=
  r.functions.lookup name

/-- Whether a name is that of a function. -/
def contains (r : Registry) (name : String) : Bool :=
  (r.find? name).isSome

/-- The registry without the function of a name. -/
def unregister (r : Registry) (name : String) : Registry :=
  { r with functions := r.functions.filter fun f => f.1 != name }

/-- The registry with one more function, or another one under a name. -/
def register (r : Registry) (name : String) (h : Handler) : Registry :=
  { r with functions := (name, h) :: (r.unregister name).functions }

/-- The number of functions. -/
def size (r : Registry) : Nat :=
  r.functions.length

/-- The names of the functions, in order. -/
def names (r : Registry) : List String :=
  (r.functions.map Prod.fst).mergeSort fun a b => decide (a ≤ b)

/-- A registry in a line: the names of its functions and its limits. -/
def describe (r : Registry) : String :=
  let names := ", ".intercalate (r.names.map Text.quote)
  s!"IntrinsicFunctionRegistry \x7b functions: [{names}], config: " ++
    s!"IntrinsicConfig \x7b max_nesting_depth: {r.limits.maxNestingDepth}, " ++
    s!"max_array_range_items: {r.limits.maxArrayRangeItems} \x7d \x7d"

/-! ## Values -/

/-- The value of a path parameter. -/
def resolvePath (sources : Path.Sources) (text : String) : Except Call.Error Json :=
  match Path.scoped? text with
  | none => .error (.failed text .unrootedPath)
  | some (source, path) =>
    match sources.select source path with
    | some value => .ok value
    | none => .error (.failed text .missingPath)

/-- The value of a decimal parameter. -/
def resolveDecimal (x : Extended) : Except Call.Error Json :=
  match x.finite? with
  | some y => .ok (.number (.real y))
  | none => .error (.failed (Call.Param.render (.decimal x)) .infiniteDecimal)

/-- The value of a parameter, calls given. -/
def resolveParam (sources : Path.Sources) (call : Call → Except Call.Error Json) :
    Call.Param → Except Call.Error Json
  | .null => .ok .null
  | .boolean b => .ok (.bool b)
  | .string s => .ok (.string s)
  | .int n => .ok (.number (.ofInt n.toInt))
  | .decimal x => resolveDecimal x
  | .path text => resolvePath sources text
  | .call c => call c

/-- The value of a call. The first argument bounds how deep functions call each other. -/
def invoke (r : Registry) (sources : Path.Sources) :
    Nat → UInt64 → Call → Except Call.Error Json
  | 0, _, _ => .error .endless
  | fuel + 1, entropy, c =>
    match r.find? c.name with
    | none => .error (.unknown c.name)
    | some h =>
      h c ⟨sources, r.limits, entropy, fun position =>
        resolveParam sources (r.invoke sources fuel (Handler.inner entropy position))⟩

/-- How deep functions may call each other for a call: at every level of the call, each function
once. -/
def callDepth (r : Registry) (c : Call) : Nat :=
  c.nesting * (r.size + 1)

/-- The value of a call. -/
def call (r : Registry) (entropy : UInt64) (c : Call) (sources : Path.Sources) :
    Except Call.Error Json :=
  r.invoke sources (r.callDepth c) entropy c

/-- The value of an expression. -/
def evaluate (r : Registry) (entropy : UInt64) (text : String) (sources : Path.Sources) :
    Except Call.Error Json :=
  match Call.parse r.limits.maxNestingDepth text with
  | .ok c => r.call entropy c sources
  | .error d => .error (.malformed text d)

end Registry

end StatesLang
