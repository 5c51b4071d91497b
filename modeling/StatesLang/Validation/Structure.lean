import StatesLang.Definition
import StatesLang.Path.Scoped
import StatesLang.Settings.Basic
import StatesLang.Validation.Problem

/-!
# The structure of definitions

Every state is checked against the rules of its type, and all problems are listed.

* `Validation.conditionProblems`: the paths and the groups of a condition.
* `Validation.retrierProblems`, `catcherProblems`, `exitProblems`: what follows a state.
* `Validation.stateProblems`, `graphProblems`: a state in its graph, and a graph with all inside it.
* `Validation.structureProblems`: a definition with all graphs inside it.
-/

namespace StatesLang.Validation

open State (Exit Limit Recovery Scope Work)

/-- A problem at a place if a condition holds. -/
def problemIf (condition : Prop) [Decidable condition] (place : Place) (d : Defect) :
    List Problem :=
  if condition then [⟨place, d⟩] else []

/-! ## Fields -/

/-- A number that is given must be positive. -/
def positiveProblems (place : Place) (field : String) : Option Int64 → List Problem
  | some n => problemIf (n ≤ 0) place (.notPositive field)
  | none => []

/-- A number that is given must not be negative. -/
def negativeProblems (place : Place) (field : String) : Option Int64 → List Problem
  | some n => problemIf (n < 0) place (.negative field)
  | none => []

/-- A path that is given must be a reference path. -/
def referenceProblems (place : Place) (field : String) : Option String → List Problem
  | none => []
  | some text =>
    match Path.parse text with
    | .ok _ => []
    | .error d => [⟨place, .invalidReference field text d⟩]

/-- A path that is given must pass as a path. -/
def pathProblems (place : Place) (field : String) : Option String → List Problem
  | none => []
  | some text => problemIf (Path.isLenient text = false) place (.invalidPath field text)

/-- The paths of what a state takes and gives. -/
def scopeProblems (place : Place) (s : Scope) : List Problem :=
  pathProblems place "InputPath" s.inputPath.path? ++
    pathProblems place "OutputPath" s.outputPath.path?

/-- The path of a result. -/
def resultPathProblems (place : Place) (p : OptionalPath) : List Problem :=
  referenceProblems place "ResultPath" p.path?

/-- A template that is given. -/
def templateProblems (settings : Settings.Validation) (place : Place) (field : String) :
    Option Json → List Problem
  | none => []
  | some t =>
    (Template.problems settings.maxIntrinsicDepth t).map fun p => ⟨place, .template field p⟩

/-- How the work of a state is fed, and where its result goes. -/
def workProblems (settings : Settings.Validation) (place : Place) (w : Work) : List Problem :=
  resultPathProblems place w.resultPath ++
    templateProblems settings place "Parameters" w.parameters ++
    templateProblems settings place "ResultSelector" w.resultSelector

/-- Whether a text is a path into one of the documents or a call. -/
def isDynamic (settings : Settings.Validation) (text : String) : Bool :=
  match Path.scoped? text with
  | some (_, path) => Path.isPath path
  | none =>
    match Call.parse settings.maxIntrinsicDepth text with
    | .ok _ => true
    | .error _ => false

/-- A path or call that is given. -/
def dynamicProblems (settings : Settings.Validation) (place : Place) (field : String) :
    Option String → List Problem
  | none => []
  | some text => problemIf (isDynamic settings text = false) place (.notDynamic field text)

/-- Two fields that must not be given together. -/
def exclusiveProblems (place : Place) (first second : String) (hasFirst hasSecond : Bool) :
    List Problem :=
  problemIf (hasFirst ∧ hasSecond) place (.exclusive first second)

/-! ## Transitions -/

/-- A name must be that of a state of the graph. -/
def targetProblems (g : Graph) (place : Place) (field name : String) : List Problem :=
  problemIf (g.contains name = false) place (.unknownTarget field name)

/-- A state goes on or ends, and not both. -/
def exitProblems (g : Graph) (place : Place) : Exit → List Problem
  | ⟨some _, true⟩ => [⟨place, .exclusive "Next" "End"⟩]
  | ⟨none, false⟩ => [⟨place, .exitMissing⟩]
  | ⟨some next, false⟩ => targetProblems g place "Next" next
  | ⟨none, true⟩ => []

/-- The names of errors. The name for all errors stands alone, in the last entry. -/
def errorProblems (place : Place) (errors : List String) (isLast : Bool) : List Problem :=
  if errors = [] then [⟨place, .noErrors⟩]
  else if allErrors ∈ errors then
    problemIf (1 < errors.length) place .wildcardNotAlone ++
      problemIf (isLast = false) place .wildcardNotLast
  else []

/-- The growth of the interval must not be below one. -/
def backoffProblems (place : Place) : Option Extended → List Problem
  | some x => problemIf (x.isBelow Binary64.one = true) place .backoffTooSmall
  | none => []

/-- The retriers of a state, from an index on. -/
def retrierProblems (place : Place) (index : Nat) : List Retrier → List Problem
  | [] => []
  | r :: rest =>
    let here := Place.at place (.retry index)
    errorProblems here r.errorEquals rest.isEmpty ++
      positiveProblems here "IntervalSeconds" r.intervalSeconds ++
      negativeProblems here "MaxAttempts" r.maxAttempts ++
      backoffProblems here r.backoffRate ++
      retrierProblems place (index + 1) rest

/-- The catchers of a state, from an index on. -/
def catcherProblems (g : Graph) (place : Place) (index : Nat) : List Catcher → List Problem
  | [] => []
  | c :: rest =>
    let here := Place.at place (.catcher index)
    errorProblems here c.errorEquals rest.isEmpty ++
      (if c.next = "" then [⟨here, .nextMissing⟩] else targetProblems g here "Next" c.next) ++
      resultPathProblems here c.resultPath ++
      catcherProblems g place (index + 1) rest

/-- What follows errors. -/
def recoveryProblems (g : Graph) (place : Place) (r : Recovery) : List Problem :=
  retrierProblems place 0 r.retriers ++ catcherProblems g place 0 r.catchers

/-! ## Conditions -/

/-- The path that a condition reads. It may be empty but may not read the context. -/
def variableProblems (place : Place) (path : String) : List Problem :=
  match Path.scoped? path with
  | some (.context, _) => [⟨place, .contextVariable path⟩]
  | _ => problemIf (path ≠ "" ∧ Path.isLenient path = false) place (.invalidPath "Variable" path)

/-- The path that a condition compares with. It may not read the context. -/
def operandProblems (place : Place) (path : String) : List Problem :=
  match Path.scoped? path with
  | some (.context, _) => [⟨place, .contextOperand path⟩]
  | _ => problemIf (Path.isLenient path = false) place (.invalidOperand path)

mutual

/-- The paths and the groups of a condition. -/
def conditionProblems (place : Place) : Condition → List Problem
  | .compare path _ _ => variableProblems place path
  | .test path _ _ => variableProblems place path
  | .comparePath path op _ expectedPath =>
    variableProblems place path ++ problemIf (op = .wildcard) place .patternPath ++
      operandProblems place expectedPath
  | .and children =>
    problemIf (children.isEmpty) place (.emptyGroup "And") ++ conditionListProblems place children
  | .or children =>
    problemIf (children.isEmpty) place (.emptyGroup "Or") ++ conditionListProblems place children
  | .not child => conditionProblems place child

/-- The same for the conditions of a group. -/
def conditionListProblems (place : Place) : List Condition → List Problem
  | [] => []
  | c :: cs => conditionProblems place c ++ conditionListProblems place cs

end

/-- The rules of a choice, from an index on. -/
def ruleProblems (g : Graph) (place : Place) (index : Nat) : List ChoiceRule → List Problem
  | [] => []
  | r :: rest =>
    let here := Place.at place (.choice index)
    targetProblems g here "Next" r.next ++ conditionProblems here r.condition ++
      ruleProblems g place (index + 1) rest

/-! ## Types of states -/

/-- The seconds and the path of a limit. -/
def limitProblems (place : Place) (field pathField : String) (l : Limit) : List Problem :=
  exclusiveProblems place field pathField l.seconds.isSome l.path.isSome

/-- The heartbeat must be shorter than the whole time. -/
def heartbeatProblems (place : Place) (timeout heartbeat : Option Int64) : List Problem :=
  match timeout, heartbeat with
  | some t, some h => problemIf (t ≤ h) place .heartbeatTooLong
  | _, _ => []

/-- A task. -/
def taskProblems (settings : Settings.Validation) (g : Graph) (place : Place) (t : State.Task) :
    List Problem :=
  problemIf (t.resource.toList.all Text.isBlank) place .resourceMissing ++
    positiveProblems place "TimeoutSeconds" t.timeout.seconds ++
    positiveProblems place "HeartbeatSeconds" t.heartbeat.seconds ++
    heartbeatProblems place t.timeout.seconds t.heartbeat.seconds ++
    limitProblems place "TimeoutSeconds" "TimeoutSecondsPath" t.timeout ++
    limitProblems place "HeartbeatSeconds" "HeartbeatSecondsPath" t.heartbeat ++
    referenceProblems place "TimeoutSecondsPath" t.timeout.path ++
    referenceProblems place "HeartbeatSecondsPath" t.heartbeat.path ++
    scopeProblems place t.scope ++ workProblems settings place t.work ++
    recoveryProblems g place t.recovery ++ exitProblems g place t.exit

/-- A pass. -/
def passProblems (settings : Settings.Validation) (g : Graph) (place : Place) (p : State.Pass) :
    List Problem :=
  scopeProblems place p.scope ++ resultPathProblems place p.resultPath ++
    templateProblems settings place "Parameters" p.parameters ++ exitProblems g place p.exit

/-- A choice. -/
def choiceProblems (g : Graph) (place : Place) (c : State.Choice) : List Problem :=
  problemIf (c.rules.isEmpty) place .noRules ++ ruleProblems g place 0 c.rules ++
    (match c.default with
      | some name => targetProblems g place "Default" name
      | none => []) ++
    scopeProblems place c.scope

/-- The time that a wait waits until. -/
def timestampProblems (place : Place) : Option String → List Problem
  | some text => problemIf ((Timestamp.parse? text).isNone) place (.notTimestamp text)
  | none => []

/-- The number of ways in which a wait says how long it is. -/
def waitCount (w : State.Wait) : Nat :=
  w.seconds.isSome.toNat + w.secondsPath.isSome.toNat + w.timestamp.isSome.toNat +
    w.timestampPath.isSome.toNat

/-- A wait. -/
def waitProblems (g : Graph) (place : Place) (w : State.Wait) : List Problem :=
  problemIf (waitCount w ≠ 1) place .waitNotOne ++
    negativeProblems place "Seconds" w.seconds ++ timestampProblems place w.timestamp ++
    referenceProblems place "SecondsPath" w.secondsPath ++
    referenceProblems place "TimestampPath" w.timestampPath ++
    scopeProblems place w.scope ++ exitProblems g place w.exit

/-- A failure. -/
def failProblems (settings : Settings.Validation) (place : Place) (f : State.Fail) :
    List Problem :=
  exclusiveProblems place "Error" "ErrorPath" f.error.isSome f.errorPath.isSome ++
    exclusiveProblems place "Cause" "CausePath" f.cause.isSome f.causePath.isSome ++
    dynamicProblems settings place "ErrorPath" f.errorPath ++
    dynamicProblems settings place "CausePath" f.causePath

/-! ## Graphs -/

/-- What must hold of a graph before its states are looked at. -/
def startProblems (g : Graph) (place : Place) : List Problem :=
  if g.startAt = "" then [⟨place, .startMissing⟩]
  else targetProblems g place "StartAt" g.startAt

mutual

/-- The problems of a state of a graph that stands inside so many other graphs. -/
def stateProblems (settings : Settings.Validation) (g : Graph) (place : Place) (depth : Nat) :
    State → List Problem
  | .task t => taskProblems settings g place t
  | .pass p => passProblems settings g place p
  | .choice c => choiceProblems g place c
  | .wait w => waitProblems g place w
  | .succeed s => scopeProblems place s.scope
  | .fail f => failProblems settings place f
  | .parallel p branches =>
    problemIf (branches.isEmpty) place .noBranches ++
      (if settings.maxBranchDepth ≤ depth then [⟨place, .tooDeep settings.maxBranchDepth⟩]
        else branchProblems settings place (depth + 1) 0 branches) ++
      scopeProblems place p.scope ++ workProblems settings place p.work ++
      recoveryProblems g place p.recovery ++ exitProblems g place p.exit
  | .map m iterator =>
    iteratorProblems settings place depth iterator ++
      negativeProblems place "MaxConcurrency" m.maxConcurrency ++
      referenceProblems place "ItemsPath" m.itemsPath ++
      scopeProblems place m.scope ++ workProblems settings place m.work ++
      recoveryProblems g place m.recovery ++ exitProblems g place m.exit

/-- The problems of an iterator, or that there is none. -/
def iteratorProblems (settings : Settings.Validation) (place : Place) (depth : Nat) :
    Option Graph → List Problem
  | none => [⟨place, .noIterator⟩]
  | some iterator =>
    if settings.maxBranchDepth ≤ depth then [⟨place, .tooDeep settings.maxBranchDepth⟩]
    else graphProblems settings (Place.at place .iterator) (depth + 1) iterator

/-- The problems of a graph and of all graphs inside it. -/
def graphProblems (settings : Settings.Validation) (place : Place) (depth : Nat) :
    Graph → List Problem
  | ⟨comment, startAt, states⟩ =>
    if states.isEmpty then [⟨place, .noStates⟩]
    else
      startProblems ⟨comment, startAt, states⟩ place ++
        stateListProblems settings ⟨comment, startAt, states⟩ place depth states

/-- The problems of the graphs of a parallel state, from an index on. -/
def branchProblems (settings : Settings.Validation) (place : Place) (depth : Nat) (index : Nat) :
    List Graph → List Problem
  | [] => []
  | g :: gs =>
    graphProblems settings (Place.at place (.branch index)) depth g ++
      branchProblems settings place depth (index + 1) gs

/-- The problems of named states of a graph. -/
def stateListProblems (settings : Settings.Validation) (g : Graph) (place : Place)
    (depth : Nat) : List (String × State) → List Problem
  | [] => []
  | (name, s) :: rest =>
    stateProblems settings g (Place.at place (.state name)) depth s ++
      stateListProblems settings g place depth rest

end

/-- The problems of the structure of a definition. -/
def structureProblems (settings : Settings.Validation) (d : Definition) : List Problem :=
  positiveProblems [] "TimeoutSeconds" d.timeoutSeconds ++ graphProblems settings [] 0 d.graph

end StatesLang.Validation
