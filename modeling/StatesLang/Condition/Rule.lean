import StatesLang.Condition.Codec

/-!
# Choice rules

* `ChoiceRule`: a condition with the name of the state that follows where it holds.
* `ChoiceRule.toJson`, `ChoiceRule.ofJson`: its document.
-/

namespace StatesLang

/-- A condition and the state that follows where it holds. -/
structure ChoiceRule where
  condition : Condition
  next : String
  comment : Option String
deriving DecidableEq

namespace ChoiceRule

/-- Whether a document fulfils the condition of a rule. -/
def eval (document : Json) (r : ChoiceRule) : Bool :=
  r.condition.eval document

/-- Sets a member of a document, if it is an object. -/
def withMember (key : String) (value : Json) : Json → Json
  | .object members => .object (Json.insert key value members)
  | j => j

/-- The document of a rule: that of its condition, with the next state and the comment. -/
def toJson (r : ChoiceRule) : Json :=
  let j := withMember "Next" (.string r.next) r.condition.toJson
  match r.comment with
  | some comment => withMember "Comment" (.string comment) j
  | none => j

/-- Why a document is no rule. -/
inductive Defect
  | missingNext
  | nextNotString
  | condition (d : Condition.Defect)
deriving DecidableEq

/-- The wording of a defect of the condition of a rule. -/
def conditionMessage (d : Condition.Defect) : String :=
  "Invalid state machine definition: " ++ d.message

/-- The wording of a defect. -/
def Defect.message : Defect → String
  | .missingNext => "choice rule is missing 'Next'"
  | .nextNotString => "choice rule 'Next' must be a string"
  | .condition d => conditionMessage d

/-- The rule of a document. A comment that is no text is left out. -/
def ofJson (j : Json) : Except Defect ChoiceRule :=
  match j.member? "Next" with
  | none => .error .missingNext
  | some (.string next) =>
    match Condition.ofJson j with
    | .ok condition => .ok ⟨condition, next, (j.member? "Comment").bind Json.string?⟩
    | .error d => .error (.condition d)
  | some _ => .error .nextNotString

end ChoiceRule

end StatesLang
