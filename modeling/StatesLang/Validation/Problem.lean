import StatesLang.Template.Check

/-!
# Problems of definitions

* `Validation.Segment`, `Validation.Place`: where in a definition a problem lies.
* `Validation.Defect`: what is wrong there, and its wording.
* `Validation.Problem`: a defect at a place; `Validation.report` lists problems.
-/

namespace StatesLang.Validation

/-- A step into a definition. -/
inductive Segment
  | state (name : String)
  | choice (index : Nat)
  | retry (index : Nat)
  | catcher (index : Nat)
  | branch (index : Nat)
  | iterator
deriving DecidableEq

/-- The text of a step. -/
def Segment.render : Segment → String
  | .state name => s!"State[{name}]"
  | .choice i => s!"Choice[{i}]"
  | .retry i => s!"Retry[{i}]"
  | .catcher i => s!"Catch[{i}]"
  | .branch i => s!"Branch[{i}]"
  | .iterator => "Iterator"

/-- A place in a definition: the steps that lead to it. -/
abbrev Place := List Segment

/-- The place one step further in. -/
def Place.at (p : Place) (s : Segment) : Place :=
  p ++ [s]

/-- The text of a place. -/
def Place.render (p : Place) : String :=
  if p.isEmpty then "StateMachine" else ".".intercalate (p.map Segment.render)

/-- What is wrong at a place. -/
inductive Defect
  | notPositive (field : String)
  | negative (field : String)
  | noStates
  | startMissing
  | unknownTarget (field name : String)
  | resourceMissing
  | heartbeatTooLong
  | exclusive (first second : String)
  | exitMissing
  | noRules
  | contextVariable (path : String)
  | contextOperand (path : String)
  | invalidPath (field path : String)
  | invalidOperand (path : String)
  | patternPath
  | emptyGroup (operator : String)
  | waitNotOne
  | notTimestamp (text : String)
  | noBranches
  | noIterator
  | tooDeep (limit : Nat)
  | noErrors
  | wildcardNotAlone
  | wildcardNotLast
  | backoffTooSmall
  | nextMissing
  | invalidReference (field path : String) (d : Path.Defect)
  | notDynamic (field text : String)
  | template (field : String) (p : Template.Problem)
  | noTerminal
deriving DecidableEq

/-- The error name that stands for all errors. -/
def allErrors : String := "States.ALL"

/-- The wording of a defect. -/
def Defect.message : Defect → String
  | .notPositive field => s!"{field} must be positive"
  | .negative field => s!"{field} must not be negative"
  | .noStates => "States must contain at least one state"
  | .startMissing => "StartAt is required"
  | .unknownTarget field name => s!"{field} '{name}' does not name a state"
  | .resourceMissing => "Resource is required"
  | .heartbeatTooLong => "HeartbeatSeconds must be smaller than TimeoutSeconds"
  | .exclusive first second => s!"{first} and {second} are mutually exclusive"
  | .exitMissing => "One of Next or End is required"
  | .noRules => "Choices must contain at least one rule"
  | .contextVariable path => s!"Variable '{path}' cannot read the context document"
  | .contextOperand path => s!"'{path}' cannot read the context document"
  | .invalidPath field path => s!"{field} '{path}' is not a valid JSONPath"
  | .invalidOperand path => s!"'{path}' is not a valid JSONPath"
  | .patternPath => "StringMatches has no path form"
  | .emptyGroup operator => s!"{operator} must contain at least one condition"
  | .waitNotOne =>
    "Exactly one of Seconds, SecondsPath, Timestamp and TimestampPath must be set"
  | .notTimestamp text => s!"Timestamp '{text}' is not an RFC 3339 timestamp"
  | .noBranches => "Branches must contain at least one branch"
  | .noIterator => "Iterator is required"
  | .tooDeep limit => s!"Parallel and Map states are nested deeper than {limit} levels"
  | .noErrors => "ErrorEquals must not be empty"
  | .wildcardNotAlone => s!"{allErrors} must appear alone in ErrorEquals"
  | .wildcardNotLast => s!"{allErrors} must only appear in the last entry"
  | .backoffTooSmall => "BackoffRate must be at least 1.0"
  | .nextMissing => "Next is required"
  | .invalidReference field path d => s!"{field} is invalid: " ++ Path.report path d.message
  | .notDynamic field text =>
    s!"{field} '{text}' must be a reference path or an intrinsic function"
  | .template field p => s!"{field}: {p.message}"
  | .noTerminal => "No path to a terminal state exists."

/-- A defect at a place. -/
structure Problem where
  place : Place
  defect : Defect
deriving DecidableEq

/-- A problem in a line. -/
def Problem.render (p : Problem) : String :=
  p.place.render ++ ": " ++ p.defect.message

/-- The text that lists problems. -/
def report (problems : List Problem) : String :=
  s!"State machine validation failed with {problems.length} problem(s):" ++
    String.join (problems.map fun p => "\n  - " ++ p.render)

end StatesLang.Validation
