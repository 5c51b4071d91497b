import StatesLang.Registry.Basic

/-!
# Rendering templates

* `Template.Error`: what can come out of a template instead of a document.
* `Template.renderExpression`: the value of a path or a call.
* `Template.render`: the document of a template. Values of dynamic members are taken as they are.
-/

namespace StatesLang.Template

/-- What can come out of a template instead of a document. -/
inductive Error
  | notText (key : String)
  | missingPath (expression : String)
  | call (e : Call.Error)
deriving DecidableEq

/-- The value of an expression: that of a path, or that of a call. -/
def renderExpression (r : Registry) (entropy : UInt64) (sources : Path.Sources)
    (expression : String) : Except Error Json :=
  match Path.scoped? expression with
  | some (source, path) =>
    match sources.select source path with
    | some value => .ok value
    | none => .error (.missingPath expression)
  | none => (r.evaluate entropy expression sources).mapError .call

/-- The value of a dynamic member with a key. -/
def renderDynamic (r : Registry) (entropy : UInt64) (sources : Path.Sources) (key : String) :
    Json → Except Error Json
  | .string expression => renderExpression r entropy sources expression
  | _ => .error (.notText key)

mutual

/-- The document of a template. -/
def render (r : Registry) (entropy : UInt64) (sources : Path.Sources) : Json → Except Error Json
  | .object members => (renderMembers r entropy sources [] members).map .object
  | .array items => (renderItems r entropy sources 0 items).map .array
  | value => .ok value

/-- The items of an array, from a position on. -/
def renderItems (r : Registry) (entropy : UInt64) (sources : Path.Sources) (position : Nat) :
    List Json → Except Error (List Json)
  | [] => .ok []
  | item :: rest => do
    let v ← render r (Handler.inner entropy position) sources item
    let vs ← renderItems r entropy sources (position + 1) rest
    return v :: vs

/-- The members of an object, put among those before them. Dynamic members lose the ending of their
key. -/
def renderMembers (r : Registry) (entropy : UInt64) (sources : Path.Sources)
    (before : List (String × Json)) : List (String × Json) → Except Error (List (String × Json))
  | [] => .ok before
  | (key, value) :: rest =>
    let inner := Handler.inner entropy rest.length
    match dynamicName? key with
    | some name => do
      let v ← renderDynamic r inner sources key value
      renderMembers r entropy sources (Json.insert name v before) rest
    | none => do
      let v ← render r inner sources value
      renderMembers r entropy sources (Json.insert key v before) rest

end

end StatesLang.Template
