import StatesLang.Call.Parser
import StatesLang.Path.Parser

/-!
# Payload templates

A template is a document in which the members whose keys end in `.$` hold paths or calls.

* `Path.report`, `Call.report`: a text that is no path or no call, with its defect.
* `Template.dynamicName?`: the key of a dynamic member without its ending.
* `Template.Problem`: what can be wrong with a dynamic member, and its wording.
* `Template.problems`: all that is wrong with a template, as far as the template shows it.
-/

namespace StatesLang

/-- A text that is no reference path, with the reason. -/
def Path.report (text reason : String) : String :=
  s!"Invalid reference path '{text}': {reason}"

/-- A text that is no call, or a call that fails, with the reason. -/
def Call.report (text reason : String) : String :=
  s!"Invalid intrinsic function '{text}': {reason}"

namespace Template

/-- The key of a dynamic member without the ending `.$`. Other keys have none. -/
def dynamicName? (key : String) : Option String :=
  match key.toList.reverse with
  | '$' :: '.' :: rest => some (String.ofList rest.reverse)
  | _ => none

/-- What is wrong with a dynamic member. -/
inductive Problem
  | notText (key : String)
  | notPath (key expression : String)
  | notCall (key expression : String) (d : Call.Defect)
deriving DecidableEq

/-- The wording of a problem. -/
def Problem.message : Problem → String
  | .notText key => s!"'{key}' must hold a path or an intrinsic function string"
  | .notPath key expression => s!"'{key}' is not a valid path: {expression}"
  | .notCall key expression d =>
    s!"'{key}' is not a valid intrinsic function: " ++ Call.report expression d.message

/-- Whether an expression is a path and not a call. -/
def isPathExpression (expression : String) : Bool :=
  expression.toList.head? == some '$'

/-- What is wrong with a dynamic member with a key. -/
def memberProblem? (maxDepth : Nat) (key : String) : Json → Option Problem
  | .string expression =>
    if isPathExpression expression then
      if Path.isLenient expression then none else some (.notPath key expression)
    else
      match Call.parse maxDepth expression with
      | .ok _ => none
      | .error d => some (.notCall key expression d)
  | _ => some (.notText key)

mutual

/-- What is wrong with a template, in document order. -/
def problems (maxDepth : Nat) : Json → List Problem
  | .object members => memberProblems maxDepth members
  | .array items => itemProblems maxDepth items
  | _ => []

/-- What is wrong with the items of an array. -/
def itemProblems (maxDepth : Nat) : List Json → List Problem
  | [] => []
  | item :: rest => problems maxDepth item ++ itemProblems maxDepth rest

/-- What is wrong with the members of an object. Nothing is looked for inside dynamic members. -/
def memberProblems (maxDepth : Nat) : List (String × Json) → List Problem
  | [] => []
  | (key, value) :: rest =>
    (match dynamicName? key with
      | some _ => (memberProblem? maxDepth key value).toList
      | none => problems maxDepth value) ++
      memberProblems maxDepth rest

end

end Template

end StatesLang
