import StatesLang.Number.Extended

/-!
# Intrinsic function calls

* `Call`, `Call.Param`: a call by name and its parameters.
* `Call.render`: the text of a call, parameters separated by a comma and a blank.
* `Call.nesting`: how deep calls stand inside each other.
-/

namespace StatesLang

mutual

/-- A call of a function by its name. -/
inductive Call
  | mk (name : String) (params : List Call.Param)

/-- A parameter of a call: a literal, a path kept as it was written, or a call. -/
inductive Call.Param
  | null
  | boolean (b : Bool)
  | string (s : String)
  | int (n : Int64)
  | decimal (x : Extended)
  | path (text : String)
  | call (c : Call)

end

namespace Call

instance : Inhabited Param := ⟨.null⟩

instance : Inhabited Call := ⟨⟨"", []⟩⟩

/-- The name of the function called. -/
def name : Call → String
  | ⟨name, _⟩ => name

/-- The parameters, in order. -/
def params : Call → List Param
  | ⟨_, params⟩ => params

/-- The nesting limit of calls where none is given. -/
def defaultNesting : Nat := 32

/-! ## Text -/

/-- How one character stands inside a quoted parameter. -/
def escapeChar (c : Char) : List Char :=
  if c = '\\' ∨ c = '\'' then ['\\', c] else [c]

/-- A text as a quoted parameter. -/
def quote (s : String) : List Char :=
  '\'' :: s.toList.flatMap escapeChar ++ ['\'']

mutual

/-- The characters of a call. -/
def renderChars : Call → List Char
  | ⟨name, params⟩ => name.toList ++ '(' :: renderParams params ++ [')']

/-- The characters of a parameter. -/
def Param.renderChars : Param → List Char
  | .null => ['n', 'u', 'l', 'l']
  | .boolean true => ['t', 'r', 'u', 'e']
  | .boolean false => ['f', 'a', 'l', 's', 'e']
  | .string s => quote s
  | .int n => (toString n.toInt).toList
  | .decimal x => (x.render .expression).toList
  | .path text => text.toList
  | .call c => renderChars c

/-- The characters of parameters with their separators. -/
def renderParams : List Param → List Char
  | [] => []
  | p :: ps => p.renderChars ++ renderOtherParams ps

/-- The characters of the parameters after the first, each behind a separator. -/
def renderOtherParams : List Param → List Char
  | [] => []
  | p :: ps => ',' :: ' ' :: p.renderChars ++ renderOtherParams ps

end

/-- The text of a call. -/
def render (c : Call) : String :=
  String.ofList c.renderChars

/-- The text of a parameter. -/
def Param.render (p : Param) : String :=
  String.ofList p.renderChars

/-! ## Nesting -/

mutual

/-- How deep calls stand inside each other: one for a call without calls among its parameters. -/
def nesting : Call → Nat
  | ⟨_, params⟩ => paramsNesting params + 1

/-- The nesting of a parameter: none, unless it is a call. -/
def Param.nesting : Param → Nat
  | .call c => Call.nesting c
  | _ => 0

/-- The deepest nesting among parameters. -/
def paramsNesting : List Param → Nat
  | [] => 0
  | p :: ps => max p.nesting (paramsNesting ps)

end

/-! ## Equality -/

mutual

/-- Decides whether two calls are the same. -/
protected def decEq : (a b : Call) → Decidable (a = b)
  | ⟨m, ps⟩, ⟨n, qs⟩ =>
    match String.decEq m n, Call.decEqParams ps qs with
    | isTrue h, isTrue h' => isTrue (by rw [h, h'])
    | isFalse h, _ => isFalse (by simp [h])
    | _, isFalse h => isFalse (by simp [h])

/-- The same for two parameters. -/
protected def decEqParam : (a b : Param) → Decidable (a = b)
  | .null, .null => isTrue rfl
  | .boolean a, .boolean b => if h : a = b then isTrue (by rw [h]) else isFalse (by simp [h])
  | .string a, .string b => if h : a = b then isTrue (by rw [h]) else isFalse (by simp [h])
  | .int a, .int b => if h : a = b then isTrue (by rw [h]) else isFalse (by simp [h])
  | .decimal a, .decimal b => if h : a = b then isTrue (by rw [h]) else isFalse (by simp [h])
  | .path a, .path b => if h : a = b then isTrue (by rw [h]) else isFalse (by simp [h])
  | .call a, .call b =>
    match Call.decEq a b with
    | isTrue h => isTrue (by rw [h])
    | isFalse h => isFalse (by simp [h])
  | .null, .boolean _ | .null, .string _ | .null, .int _ | .null, .decimal _ | .null, .path _
  | .null, .call _ | .boolean _, .null | .boolean _, .string _ | .boolean _, .int _
  | .boolean _, .decimal _ | .boolean _, .path _ | .boolean _, .call _ | .string _, .null
  | .string _, .boolean _ | .string _, .int _ | .string _, .decimal _ | .string _, .path _
  | .string _, .call _ | .int _, .null | .int _, .boolean _ | .int _, .string _
  | .int _, .decimal _ | .int _, .path _ | .int _, .call _ | .decimal _, .null
  | .decimal _, .boolean _ | .decimal _, .string _ | .decimal _, .int _ | .decimal _, .path _
  | .decimal _, .call _ | .path _, .null | .path _, .boolean _ | .path _, .string _
  | .path _, .int _ | .path _, .decimal _ | .path _, .call _ | .call _, .null
  | .call _, .boolean _ | .call _, .string _ | .call _, .int _ | .call _, .decimal _
  | .call _, .path _ => isFalse (by simp)

/-- The same for two lists of parameters. -/
protected def decEqParams : (a b : List Param) → Decidable (a = b)
  | [], [] => isTrue rfl
  | a :: as, b :: bs =>
    match Call.decEqParam a b, Call.decEqParams as bs with
    | isTrue h, isTrue h' => isTrue (by rw [h, h'])
    | isFalse h, _ => isFalse (by simp [h])
    | _, isFalse h => isFalse (by simp [h])
  | [], _ :: _ | _ :: _, [] => isFalse (by simp)

end

instance : DecidableEq Call := Call.decEq

instance : DecidableEq Param := Call.decEqParam

end Call

end StatesLang
