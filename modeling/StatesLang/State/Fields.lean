import StatesLang.State.Basic
import StatesLang.Decode.Record

/-!
# The fields of states

Every type of state has its own fields, out of those that are listed here together.

* `State.Field`: the fields with their keys.
* `State.fieldsOf`: the fields of a type, in the order of declaration.
* `State.Record`: the values of all fields; `State.Record.toState`, `State.record`: the state of a
  type with these values, and the values of a state.
* `State.Record.read`, `State.Record.write?`: one field as a value.
-/

namespace StatesLang

open Json (Syntax)

namespace State

/-! ## Fields -/

/-- A field of a state. -/
inductive Field
  | comment
  | resource
  | inputPath
  | outputPath
  | resultPath
  | parameters
  | resultSelector
  | result
  | timeoutSeconds
  | timeoutSecondsPath
  | heartbeatSeconds
  | heartbeatSecondsPath
  | choices
  | default
  | seconds
  | secondsPath
  | timestamp
  | timestampPath
  | error
  | errorPath
  | cause
  | causePath
  | branches
  | iterator
  | itemsPath
  | maxConcurrency
  | retry
  | catchers
  | next
  | isEnd
deriving DecidableEq

/-- The key of a field. -/
def Field.key : Field → String
  | .comment => "Comment"
  | .resource => "Resource"
  | .inputPath => "InputPath"
  | .outputPath => "OutputPath"
  | .resultPath => "ResultPath"
  | .parameters => "Parameters"
  | .resultSelector => "ResultSelector"
  | .result => "Result"
  | .timeoutSeconds => "TimeoutSeconds"
  | .timeoutSecondsPath => "TimeoutSecondsPath"
  | .heartbeatSeconds => "HeartbeatSeconds"
  | .heartbeatSecondsPath => "HeartbeatSecondsPath"
  | .choices => "Choices"
  | .default => "Default"
  | .seconds => "Seconds"
  | .secondsPath => "SecondsPath"
  | .timestamp => "Timestamp"
  | .timestampPath => "TimestampPath"
  | .error => "Error"
  | .errorPath => "ErrorPath"
  | .cause => "Cause"
  | .causePath => "CausePath"
  | .branches => "Branches"
  | .iterator => "Iterator"
  | .itemsPath => "ItemsPath"
  | .maxConcurrency => "MaxConcurrency"
  | .retry => "Retry"
  | .catchers => "Catch"
  | .next => "Next"
  | .isEnd => "End"

/-- The fields of a type, in the order of declaration. -/
def fieldsOf : StateType → List Field
  | .task =>
    [.comment, .resource, .inputPath, .outputPath, .resultPath, .parameters, .resultSelector,
      .timeoutSeconds, .timeoutSecondsPath, .heartbeatSeconds, .heartbeatSecondsPath, .retry,
      .catchers, .next, .isEnd]
  | .pass =>
    [.comment, .inputPath, .outputPath, .resultPath, .parameters, .result, .next, .isEnd]
  | .choice => [.comment, .inputPath, .outputPath, .choices, .default]
  | .wait =>
    [.comment, .inputPath, .outputPath, .seconds, .secondsPath, .timestamp, .timestampPath, .next,
      .isEnd]
  | .succeed => [.comment, .inputPath, .outputPath]
  | .fail => [.comment, .error, .errorPath, .cause, .causePath]
  | .parallel =>
    [.comment, .inputPath, .outputPath, .resultPath, .parameters, .resultSelector, .branches,
      .retry, .catchers, .next, .isEnd]
  | .map =>
    [.comment, .inputPath, .outputPath, .resultPath, .parameters, .resultSelector, .iterator,
      .itemsPath, .maxConcurrency, .retry, .catchers, .next, .isEnd]

/-- The field of a type that a key means. The iterator of a map has a second key. -/
def fieldOf? (type : StateType) (key : String) : Option Field :=
  (fieldsOf type).find? fun f => f.key == key || (f == .iterator && key == "ItemProcessor")

/-- The fields of a type as those of a record. -/
def shape (type : StateType) : Decode.RecordShape Field where
  name := type.name ++ "State"
  order := fieldsOf type
  key := Field.key
  ofKey? := fieldOf? type

/-! ## Values -/

/-- The values of all fields. Those of one type are in use. The graphs inside the state are of a
type of their own, so that they may be documents. -/
structure Record (γ : Type) where
  comment : Option String := none
  resource : String := ""
  scope : Scope := {}
  work : Work := {}
  result : Option Json := none
  timeout : Limit := {}
  heartbeat : Limit := {}
  choices : List ChoiceRule := []
  default : Option String := none
  seconds : Option Int64 := none
  secondsPath : Option String := none
  timestamp : Option String := none
  timestampPath : Option String := none
  error : Option String := none
  errorPath : Option String := none
  cause : Option String := none
  causePath : Option String := none
  branches : List γ := []
  iterator : Option γ := none
  itemsPath : Option String := none
  maxConcurrency : Option Int64 := none
  recovery : Recovery := {}
  exit : Exit := {}

/-- The state of a type with the values of its fields. -/
def Record.toState (r : Record Graph) : StateType → State
  | .task =>
    .task ⟨r.comment, r.resource, r.scope, r.work, r.timeout, r.heartbeat, r.recovery, r.exit⟩
  | .pass => .pass ⟨r.comment, r.scope, r.work.resultPath, r.work.parameters, r.result, r.exit⟩
  | .choice => .choice ⟨r.comment, r.scope, r.choices, r.default⟩
  | .wait =>
    .wait ⟨r.comment, r.scope, r.seconds, r.secondsPath, r.timestamp, r.timestampPath, r.exit⟩
  | .succeed => .succeed ⟨r.comment, r.scope⟩
  | .fail => .fail ⟨r.comment, r.error, r.errorPath, r.cause, r.causePath⟩
  | .parallel => .parallel ⟨r.comment, r.scope, r.work, r.recovery, r.exit⟩ r.branches
  | .map =>
    .map ⟨r.comment, r.scope, r.work, r.itemsPath, r.maxConcurrency, r.recovery, r.exit⟩ r.iterator

/-- The values of the fields of a state, without the graphs inside it. -/
def record {γ : Type} : State → Record γ
  | .task t =>
    { comment := t.comment, resource := t.resource, scope := t.scope, work := t.work,
      timeout := t.timeout, heartbeat := t.heartbeat, recovery := t.recovery, exit := t.exit }
  | .pass p =>
    { comment := p.comment, scope := p.scope,
      work := { resultPath := p.resultPath, parameters := p.parameters }, result := p.result,
      exit := p.exit }
  | .choice c =>
    { comment := c.comment, scope := c.scope, choices := c.rules, default := c.default }
  | .wait w =>
    { comment := w.comment, scope := w.scope, seconds := w.seconds, secondsPath := w.secondsPath,
      timestamp := w.timestamp, timestampPath := w.timestampPath, exit := w.exit }
  | .succeed s => { comment := s.comment, scope := s.scope }
  | .fail f =>
    { comment := f.comment, error := f.error, errorPath := f.errorPath, cause := f.cause,
      causePath := f.causePath }
  | .parallel p _ =>
    { comment := p.comment, scope := p.scope, work := p.work, recovery := p.recovery,
      exit := p.exit }
  | .map m _ =>
    { comment := m.comment, scope := m.scope, work := m.work, itemsPath := m.itemsPath,
      maxConcurrency := m.maxConcurrency, recovery := m.recovery, exit := m.exit }

end State

/-! ## Values of fields -/

/-- A path field that is given or null. -/
def OptionalPath.decode (s : Syntax) : Except Decode.Error OptionalPath := do
  match ← Decode.optional Decode.string s with
  | some text => return .path text
  | none => return .null

/-- A path field as a value, if it is not left out. -/
def OptionalPath.toJson? : OptionalPath → Option Json
  | .unset => none
  | .null => some .null
  | .path text => some (.string text)

namespace Json

/-- A signed integer as a document. -/
def ofInt64 (n : Int64) : Json :=
  .number (.ofInt n.toInt)

/-- A number of any sort as a document: null unless it is finite. -/
def ofExtended : Extended → Json
  | .finite x => .number (.real x)
  | .infinite _ | .notANumber => .null

/-- Texts as a document. -/
def ofStrings (ss : List String) : Json :=
  .array (ss.map .string)

/-- The members of an object whose values are there. -/
def ofMembers (members : List (String × Option Json)) : Json :=
  .object (members.filterMap fun m => m.2.map (m.1, ·))

end Json

/-! ## Retriers and catchers -/

namespace Retrier

/-- A field of a retrier. -/
inductive Field
  | errorEquals
  | intervalSeconds
  | maxAttempts
  | backoffRate
  | comment
deriving DecidableEq

/-- The key of a field. -/
def Field.key : Field → String
  | .errorEquals => "ErrorEquals"
  | .intervalSeconds => "IntervalSeconds"
  | .maxAttempts => "MaxAttempts"
  | .backoffRate => "BackoffRate"
  | .comment => "Comment"

/-- The fields, in the order of declaration. -/
def fields : List Field :=
  [.errorEquals, .intervalSeconds, .maxAttempts, .backoffRate, .comment]

/-- The fields as those of a record. -/
def shape : Decode.RecordShape Field where
  name := "Retrier"
  order := fields
  key := Field.key
  ofKey? key := fields.find? (·.key == key)

/-- Sets a field. -/
def read (r : Retrier) (f : Field) (v : Syntax) : Except Decode.Error Retrier := do
  match f with
  | .errorEquals => return { r with errorEquals := ← Decode.list Decode.string v }
  | .intervalSeconds => return { r with intervalSeconds := ← Decode.optional Decode.int64 v }
  | .maxAttempts => return { r with maxAttempts := ← Decode.optional Decode.int64 v }
  | .backoffRate =>
    return { r with backoffRate := (← Decode.optional Decode.double v).map .finite }
  | .comment => return { r with comment := ← Decode.optional Decode.string v }

/-- Reads a retrier. -/
def decode (s : Syntax) : Except Decode.Error Retrier :=
  Decode.readRecord .kept shape {} s fun _ r f v _ => r.read f v

/-- The document of a retrier. -/
def toJson (r : Retrier) : Json :=
  .ofMembers [("ErrorEquals", some (.ofStrings r.errorEquals)),
    ("IntervalSeconds", r.intervalSeconds.map .ofInt64),
    ("MaxAttempts", r.maxAttempts.map .ofInt64),
    ("BackoffRate", r.backoffRate.map .ofExtended),
    ("Comment", r.comment.map .string)]

end Retrier

namespace Catcher

/-- A field of a catcher. -/
inductive Field
  | errorEquals
  | next
  | resultPath
  | comment
deriving DecidableEq

/-- The key of a field. -/
def Field.key : Field → String
  | .errorEquals => "ErrorEquals"
  | .next => "Next"
  | .resultPath => "ResultPath"
  | .comment => "Comment"

/-- The fields, in the order of declaration. -/
def fields : List Field :=
  [.errorEquals, .next, .resultPath, .comment]

/-- The fields as those of a record. -/
def shape : Decode.RecordShape Field where
  name := "Catcher"
  order := fields
  key := Field.key
  ofKey? key := fields.find? (·.key == key)

/-- Sets a field. -/
def read (c : Catcher) (f : Field) (v : Syntax) : Except Decode.Error Catcher := do
  match f with
  | .errorEquals => return { c with errorEquals := ← Decode.list Decode.string v }
  | .next => return { c with next := ← Decode.string v }
  | .resultPath => return { c with resultPath := ← OptionalPath.decode v }
  | .comment => return { c with comment := ← Decode.optional Decode.string v }

/-- Reads a catcher. -/
def decode (s : Syntax) : Except Decode.Error Catcher :=
  Decode.readRecord .kept shape {} s fun _ c f v _ => c.read f v

/-- The document of a catcher. -/
def toJson (c : Catcher) : Json :=
  .ofMembers [("ErrorEquals", some (.ofStrings c.errorEquals)),
    ("Next", some (.string c.next)),
    ("ResultPath", c.resultPath.toJson?),
    ("Comment", c.comment.map .string)]

end Catcher

/-- Reads a choice rule. -/
def ChoiceRule.decode (s : Syntax) : Except Decode.Error ChoiceRule :=
  match s with
  | .fault f => .error (.malformed f.wanted)
  | s => (ChoiceRule.ofJson s.toJson).mapError .rule

/-! ## Fields of states -/

namespace State

/-- Sets a field that holds no graph. -/
def Record.read {γ : Type} (r : Record γ) (f : Field) (v : Syntax) :
    Except Decode.Error (Record γ) := do
  match f with
  | .comment => return { r with comment := ← Decode.optional Decode.string v }
  | .resource => return { r with resource := ← Decode.string v }
  | .inputPath => return { r with scope.inputPath := ← OptionalPath.decode v }
  | .outputPath => return { r with scope.outputPath := ← OptionalPath.decode v }
  | .resultPath => return { r with work.resultPath := ← OptionalPath.decode v }
  | .parameters => return { r with work.parameters := ← Decode.optional Decode.document v }
  | .resultSelector => return { r with work.resultSelector := ← Decode.optional Decode.document v }
  | .result => return { r with result := ← Decode.optional Decode.document v }
  | .timeoutSeconds => return { r with timeout.seconds := ← Decode.optional Decode.int64 v }
  | .timeoutSecondsPath => return { r with timeout.path := ← Decode.optional Decode.string v }
  | .heartbeatSeconds => return { r with heartbeat.seconds := ← Decode.optional Decode.int64 v }
  | .heartbeatSecondsPath => return { r with heartbeat.path := ← Decode.optional Decode.string v }
  | .choices => return { r with choices := ← Decode.list ChoiceRule.decode v }
  | .default => return { r with default := ← Decode.optional Decode.string v }
  | .seconds => return { r with seconds := ← Decode.optional Decode.int64 v }
  | .secondsPath => return { r with secondsPath := ← Decode.optional Decode.string v }
  | .timestamp => return { r with timestamp := ← Decode.optional Decode.string v }
  | .timestampPath => return { r with timestampPath := ← Decode.optional Decode.string v }
  | .error => return { r with error := ← Decode.optional Decode.string v }
  | .errorPath => return { r with errorPath := ← Decode.optional Decode.string v }
  | .cause => return { r with cause := ← Decode.optional Decode.string v }
  | .causePath => return { r with causePath := ← Decode.optional Decode.string v }
  | .itemsPath => return { r with itemsPath := ← Decode.optional Decode.string v }
  | .maxConcurrency => return { r with maxConcurrency := ← Decode.optional Decode.int64 v }
  | .retry => return { r with recovery.retriers := ← Decode.list Retrier.decode v }
  | .catchers => return { r with recovery.catchers := ← Decode.list Catcher.decode v }
  | .next => return { r with exit.next := ← Decode.optional Decode.string v }
  | .isEnd => return { r with exit.isEnd := ← Decode.boolean v }
  | .branches | .iterator => return r

/-- A list as a document, if it is not empty. -/
def listToJson? (items : List Json) : Option Json :=
  if items.isEmpty then none else some (.array items)

/-- A field as a value, if it is written at all. -/
def Record.write? (r : Record Json) : Field → Option Json
  | .comment => r.comment.map .string
  | .resource => some (.string r.resource)
  | .inputPath => r.scope.inputPath.toJson?
  | .outputPath => r.scope.outputPath.toJson?
  | .resultPath => r.work.resultPath.toJson?
  | .parameters => r.work.parameters
  | .resultSelector => r.work.resultSelector
  | .result => r.result
  | .timeoutSeconds => r.timeout.seconds.map .ofInt64
  | .timeoutSecondsPath => r.timeout.path.map .string
  | .heartbeatSeconds => r.heartbeat.seconds.map .ofInt64
  | .heartbeatSecondsPath => r.heartbeat.path.map .string
  | .choices => listToJson? (r.choices.map ChoiceRule.toJson)
  | .default => r.default.map .string
  | .seconds => r.seconds.map .ofInt64
  | .secondsPath => r.secondsPath.map .string
  | .timestamp => r.timestamp.map .string
  | .timestampPath => r.timestampPath.map .string
  | .error => r.error.map .string
  | .errorPath => r.errorPath.map .string
  | .cause => r.cause.map .string
  | .causePath => r.causePath.map .string
  | .branches => listToJson? r.branches
  | .iterator => r.iterator
  | .itemsPath => r.itemsPath.map .string
  | .maxConcurrency => r.maxConcurrency.map .ofInt64
  | .retry => listToJson? (r.recovery.retriers.map Retrier.toJson)
  | .catchers => listToJson? (r.recovery.catchers.map Catcher.toJson)
  | .next => r.exit.next.map .string
  | .isEnd => if r.exit.isEnd then some (.bool true) else none

/-- The document of a state of a type with the values of its fields. -/
def Record.toJson (r : Record Json) (type : StateType) : Json :=
  .ofMembers (("Type", some (.string type.name)) ::
    (fieldsOf type).map fun f => (f.key, r.write? f))

end State

end StatesLang
