import StatesLang.Condition.Rule
import StatesLang.Number.Extended

/-!
# States and graphs

* `OptionalPath`: a path field, left out, set to null, or given.
* `Retrier`, `Catcher`: what follows an error.
* `StateType`: the names of the types.
* `State`: the eight types of states; `Graph`: named states with a start.
* `Graph.find?`, `Graph.insert`, `Graph.erase`: the states of a graph, ordered by name.
* `State.transitions`: the names that a state can go to.
-/

namespace StatesLang

/-! ## Parts of states -/

/-- A path field. Leaving it out and setting it to null mean different things. -/
inductive OptionalPath
  | unset
  | null
  | path (text : String)
deriving DecidableEq

/-- The path, if one is given. -/
def OptionalPath.path? : OptionalPath → Option String
  | .path text => some text
  | .unset | .null => none

/-- When a state is tried again. -/
structure Retrier where
  errorEquals : List String := []
  intervalSeconds : Option Int64 := none
  maxAttempts : Option Int64 := none
  backoffRate : Option Extended := none
  comment : Option String := none
deriving DecidableEq

/-- Where an error leads. -/
structure Catcher where
  errorEquals : List String := []
  next : String := ""
  resultPath : OptionalPath := .unset
  comment : Option String := none
deriving DecidableEq

/-! ## Types and their parts -/

/-- The type of a state. -/
inductive StateType
  | task
  | pass
  | choice
  | wait
  | succeed
  | fail
  | parallel
  | map
deriving DecidableEq

namespace StateType

/-- All types, in the order of declaration. -/
def all : List StateType :=
  [.task, .pass, .choice, .wait, .succeed, .fail, .parallel, .map]

/-- The name of a type. -/
def name : StateType → String
  | .task => "Task"
  | .pass => "Pass"
  | .choice => "Choice"
  | .wait => "Wait"
  | .succeed => "Succeed"
  | .fail => "Fail"
  | .parallel => "Parallel"
  | .map => "Map"

/-- The type with a name. -/
def ofName? (name : String) : Option StateType :=
  all.find? (·.name == name)

end StateType

namespace State

/-- What every state but `Fail` takes of its input and gives as its output. -/
structure Scope where
  inputPath : OptionalPath := .unset
  outputPath : OptionalPath := .unset
deriving DecidableEq

/-- How the work of a state is fed and where its result goes. -/
structure Work where
  resultPath : OptionalPath := .unset
  parameters : Option Json := none
  resultSelector : Option Json := none
deriving DecidableEq

/-- A number of seconds, or the path where it is found. -/
structure Limit where
  seconds : Option Int64 := none
  path : Option String := none
deriving DecidableEq

/-- What follows errors. -/
structure Recovery where
  retriers : List Retrier := []
  catchers : List Catcher := []
deriving DecidableEq

/-- The one way out of a state: the next state, or the end. -/
structure Exit where
  next : Option String := none
  isEnd : Bool := false
deriving DecidableEq

/-! ## Types of states -/

/-- Has work done by a resource. -/
structure Task where
  comment : Option String := none
  resource : String := ""
  scope : Scope := {}
  work : Work := {}
  timeout : Limit := {}
  heartbeat : Limit := {}
  recovery : Recovery := {}
  exit : Exit := {}
deriving DecidableEq

/-- Passes its input on, or a fixed result. -/
structure Pass where
  comment : Option String := none
  scope : Scope := {}
  resultPath : OptionalPath := .unset
  parameters : Option Json := none
  result : Option Json := none
  exit : Exit := {}
deriving DecidableEq

/-- Goes where the first rule that holds says. -/
structure Choice where
  comment : Option String := none
  scope : Scope := {}
  rules : List ChoiceRule := []
  default : Option String := none
deriving DecidableEq

/-- Waits for a time, or until one. -/
structure Wait where
  comment : Option String := none
  scope : Scope := {}
  seconds : Option Int64 := none
  secondsPath : Option String := none
  timestamp : Option String := none
  timestampPath : Option String := none
  exit : Exit := {}
deriving DecidableEq

/-- Ends with success. -/
structure Succeed where
  comment : Option String := none
  scope : Scope := {}
deriving DecidableEq

/-- Ends with an error and its cause. -/
structure Fail where
  comment : Option String := none
  error : Option String := none
  errorPath : Option String := none
  cause : Option String := none
  causePath : Option String := none
deriving DecidableEq

/-- Runs graphs side by side; the graphs stand beside it in `State`. -/
structure Parallel where
  comment : Option String := none
  scope : Scope := {}
  work : Work := {}
  recovery : Recovery := {}
  exit : Exit := {}
deriving DecidableEq

/-- Runs a graph for every item of a list; the graph stands beside it in `State`. -/
structure Each where
  comment : Option String := none
  scope : Scope := {}
  work : Work := {}
  itemsPath : Option String := none
  maxConcurrency : Option Int64 := none
  recovery : Recovery := {}
  exit : Exit := {}
deriving DecidableEq

end State

mutual

/-- A node of a graph. -/
inductive State
  | task (t : State.Task)
  | pass (p : State.Pass)
  | choice (c : State.Choice)
  | wait (w : State.Wait)
  | succeed (s : State.Succeed)
  | fail (f : State.Fail)
  | parallel (p : State.Parallel) (branches : List Graph)
  | map (m : State.Each) (iterator : Option Graph)

/-- States by name, ordered by name, and the name of the first one to run. -/
inductive Graph
  | mk (comment : Option String) (startAt : String) (states : List (String × State))

end

/-! ## Graphs -/

namespace Graph

instance : Inhabited Graph := ⟨⟨none, "", []⟩⟩

def comment : Graph → Option String
  | ⟨comment, _, _⟩ => comment

def startAt : Graph → String
  | ⟨_, startAt, _⟩ => startAt

def states : Graph → List (String × State)
  | ⟨_, _, states⟩ => states

/-- The state with a name, among named states. -/
def lookup (name : String) : List (String × State) → Option State
  | [] => none
  | (n, s) :: rest => if n = name then some s else lookup name rest

/-- Puts a state among states ordered by name. It replaces one of the same name. -/
def insertState (name : String) (state : State) : List (String × State) → List (String × State)
  | [] => [(name, state)]
  | (n, s) :: rest =>
    if name = n then (name, state) :: rest
    else if name < n then (name, state) :: (n, s) :: rest
    else (n, s) :: insertState name state rest

/-- Takes the state with a name away. -/
def eraseState (name : String) (states : List (String × State)) : List (String × State) :=
  states.filter fun s => s.1 != name

/-- The state with a name. -/
def find? (g : Graph) (name : String) : Option State :=
  lookup name g.states

/-- Whether a name is that of a state. -/
def contains (g : Graph) (name : String) : Bool :=
  (g.find? name).isSome

/-- The graph with one more state, or another state under a name. -/
def insert (g : Graph) (name : String) (state : State) : Graph :=
  ⟨g.comment, g.startAt, insertState name state g.states⟩

/-- The graph without the state of a name. -/
def erase (g : Graph) (name : String) : Graph :=
  ⟨g.comment, g.startAt, eraseState name g.states⟩

end Graph

/-! ## Reading states off -/

namespace State

instance : Inhabited State := ⟨.succeed {}⟩

/-- The type of a state. -/
def type : State → StateType
  | .task _ => .task
  | .pass _ => .pass
  | .choice _ => .choice
  | .wait _ => .wait
  | .succeed _ => .succeed
  | .fail _ => .fail
  | .parallel _ _ => .parallel
  | .map _ _ => .map

/-- The comment of a state. -/
def comment : State → Option String
  | .task t => t.comment
  | .pass p => p.comment
  | .choice c => c.comment
  | .wait w => w.comment
  | .succeed s => s.comment
  | .fail f => f.comment
  | .parallel p _ => p.comment
  | .map m _ => m.comment

/-- The one way out, of the types that have one. -/
def exit? : State → Option Exit
  | .task t => some t.exit
  | .pass p => some p.exit
  | .wait w => some w.exit
  | .parallel p _ => some p.exit
  | .map m _ => some m.exit
  | .choice _ | .succeed _ | .fail _ => none

/-- The next state, of the types that have one way out. -/
def next? (s : State) : Option String :=
  s.exit?.bind Exit.next

/-- Whether the one way out is the end. -/
def isEnd (s : State) : Bool :=
  (s.exit?.map Exit.isEnd).getD false

/-- Whether the execution ends in a state. -/
def isTerminal : State → Bool
  | .succeed _ | .fail _ => true
  | s => s.isEnd

/-- What follows errors, of the types that can recover. -/
def recovery : State → Recovery
  | .task t => t.recovery
  | .parallel p _ => p.recovery
  | .map m _ => m.recovery
  | .pass _ | .choice _ | .wait _ | .succeed _ | .fail _ => {}

/-- The names that a choice can go to, in the order of the rules, the default last. -/
def Choice.targets (c : Choice) : List String :=
  c.rules.map ChoiceRule.next ++ c.default.toList

/-- The names that a state can go to, in the order of declaration. -/
def transitions (s : State) : List String :=
  (match s with
    | .choice c => c.targets
    | _ => []) ++
    s.next?.toList ++ s.recovery.catchers.map Catcher.next

/-- The name that a choice goes to: that of the first rule that holds, else the default. -/
def Choice.choose (c : Choice) (input : Json) : Option String :=
  match c.rules.find? (·.eval input) with
  | some rule => some rule.next
  | none => c.default

/-- A state in a line: its type and its comment. -/
def summary (s : State) : String :=
  match s.comment with
  | some comment => s!"{s.type.name} ({comment})"
  | none => s.type.name

end State

end StatesLang
