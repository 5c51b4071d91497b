import StatesLang.Machine
import StatesLang.Template.Render

/-!
# Errors

* `Error`: everything that the library refuses, with its cause.
* `Error.kind`: the sort of an error; `Error.message`: its wording.
-/

namespace StatesLang

/-- Everything that the library refuses. -/
inductive Error
  | path (text : String) (d : Path.Defect)
  | call (e : Call.Error)
  | template (e : Template.Error)
  | condition (d : Condition.Defect)
  | choice (d : Machine.ChoiceDefect)
  | invalid (problems : List Validation.Problem)
  | decode (e : Decode.Error)

namespace Error

/-- The sorts of errors. -/
inductive Kind
  | invalidPath
  | invalidCall
  | unknownFunction
  | validation
  | invalidDefinition
  | serialization
deriving DecidableEq

/-- The sort of an error of a call. -/
def callKind : Call.Error → Kind
  | .malformed _ _ | .failed _ _ | .oversized => .invalidCall
  | .unknown _ => .unknownFunction
  | .refused _ | .endless => .invalidDefinition

/-- The sort of an error. -/
def kind : Error → Kind
  | .path _ _ | .template (.missingPath _) => .invalidPath
  | .call e | .template (.call e) => callKind e
  | .template (.notText _) | .condition _ | .choice _ => .invalidDefinition
  | .invalid _ => .validation
  | .decode _ => .serialization

/-- A reason why a definition cannot be used. -/
def definitionMessage (reason : String) : String :=
  "Invalid state machine definition: " ++ reason

/-- The wording of an error of a call. -/
def callMessage : Call.Error → String
  | .malformed text d => Call.report text d.message
  | .failed text f => Call.report text f.message
  | .unknown name => s!"Unknown intrinsic function: {name}"
  | .refused reason => definitionMessage reason
  | .endless => definitionMessage "functions call each other without end"
  | .oversized => "capacity overflow"

/-- The wording of an error. -/
def message : Error → String
  | .path text d => Path.report text d.message
  | .call e | .template (.call e) => callMessage e
  | .template (.missingPath expression) =>
    Path.report expression Path.Defect.selectsNothing.message
  | .template (.notText key) => definitionMessage s!"the value of '{key}' must be a string"
  | .condition d => definitionMessage d.message
  | .choice d => definitionMessage d.message
  | .invalid problems => Validation.report problems
  | .decode e => s!"Serialization error: {e.message}"

end Error

end StatesLang
