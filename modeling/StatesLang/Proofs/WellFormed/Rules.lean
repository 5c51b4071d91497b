import StatesLang.Proofs.Nesting
import StatesLang.Proofs.Templates
import StatesLang.Settings.Basic

/-!
# Well-formed definitions

The rules of the language, said of the parts of a definition one by one. A rule on a field that may
be left out holds of the field where it is given.

* `Condition.Part`: a condition and those inside it; `Condition.WellFormed`: the rules for all of
  them.
* `Template.WellFormed`: the rules for payload templates.
* `State.WellFormed`: the rules for the eight types of states.
* `Graph.WellFormed`: the rules for a graph; `Definition.WellFormed`: those for all graphs inside a
  definition, and for how deep they stand.
-/

namespace StatesLang

/-! ## Paths and expressions -/

namespace Path

/-- A text is a reference path. -/
def IsReference (text : String) : Prop :=
  ∃ p, parse text = .ok p

/-- A path expression reads the context document. -/
def ReadsContext (text : String) : Prop :=
  ['$', '$'] <+: text.toList

instance (text : String) : Decidable (ReadsContext text) :=
  inferInstanceAs (Decidable (_ <+: _))

end Path

/-- A text is a call that is nested within a limit. -/
def Call.IsCall (limit : Nat) (text : String) : Prop :=
  ∃ c, Call.parse limit text = .ok c

namespace Template

/-- What a dynamic member may hold: a text that passes as a path, or a call within the limit. -/
def IsExpression (limit : Nat) (text : String) : Prop :=
  if isPathExpression text then Path.isLenient text = true else Call.IsCall limit text

/-- Every dynamic member holds an expression. -/
def WellFormed (limit : Nat) (t : Json) : Prop :=
  ∀ m ∈ dynamicMembers t, ∃ expression, m.2 = .string expression ∧ IsExpression limit expression

end Template

/-! ## Conditions -/

namespace Condition

/-- A condition and the conditions inside it, at any depth. -/
inductive Part : Condition → Condition → Prop
  | self (c : Condition) : Part c c
  | and {cs c p} (hc : c ∈ cs) (hp : Part c p) : Part (.and cs) p
  | or {cs c p} (hc : c ∈ cs) (hp : Part c p) : Part (.or cs) p
  | not {c p} (hp : Part c p) : Part (.not c) p

/-- A path that a condition compares with is one into the input. -/
def IsOperand (path : String) : Prop :=
  ¬ Path.ReadsContext path ∧ Path.isLenient path = true

/-- So is the path that a condition reads, or it is empty and stands for the whole input. -/
def IsVariable (path : String) : Prop :=
  path = "" ∨ IsOperand path

/-- The rules for one condition, without those inside it. -/
def KeepsRules : Condition → Prop
  | .compare path _ _ | .test path _ _ => IsVariable path
  | .comparePath path op _ expectedPath =>
    IsVariable path ∧ op ≠ .wildcard ∧ IsOperand expectedPath
  | .and children | .or children => children ≠ []
  | .not _ => True

/-- The rules for a condition and for those inside it. -/
def WellFormed (c : Condition) : Prop :=
  ∀ p, c.Part p → p.KeepsRules

end Condition

/-! ## What follows a state -/

/-- A name is that of a state of a graph. -/
def Graph.Names (g : Graph) (name : String) : Prop :=
  ∃ s, (name, s) ∈ g.states

/-- The names of errors in the entries of a list. The name for all errors stands alone, and in the
last entry only. -/
structure Validation.ErrorsWellFormed (entries : List (List String)) : Prop where
  nonempty : ∀ errors ∈ entries, errors ≠ []
  alone : ∀ errors ∈ entries, allErrors ∈ errors → errors = [allErrors]
  last : ∀ errors ∈ entries.dropLast, allErrors ∉ errors

/-- A number that is at least one. -/
def Extended.IsAtLeastOne : Extended → Prop
  | .finite x => (Binary64.one : Int) ≤ x.value
  | .infinite negative => negative = false
  | .notANumber => False

/-- The rules for one retrier. A rate that is no number, which no document has, is not refused. -/
@[mk_iff]
structure Retrier.WellFormed (r : Retrier) : Prop where
  interval : ∀ n ∈ r.intervalSeconds, 0 < n
  attempts : ∀ n ∈ r.maxAttempts, 0 ≤ n
  backoff : ∀ x ∈ r.backoffRate, x ≠ .notANumber → x.IsAtLeastOne

/-- The rules for one catcher. -/
@[mk_iff]
structure Catcher.WellFormed (g : Graph) (c : Catcher) : Prop where
  nonempty : c.next ≠ ""
  next : g.Names c.next
  resultPath : ∀ text ∈ c.resultPath.path?, Path.IsReference text

namespace State

/-- The rules for what follows errors. -/
@[mk_iff]
structure Recovery.WellFormed (g : Graph) (r : Recovery) : Prop where
  retried : Validation.ErrorsWellFormed (r.retriers.map Retrier.errorEquals)
  retriers : ∀ x ∈ r.retriers, x.WellFormed
  caught : Validation.ErrorsWellFormed (r.catchers.map Catcher.errorEquals)
  catchers : ∀ x ∈ r.catchers, x.WellFormed g

/-- The rules for the one way out: it is either the next state or the end. -/
@[mk_iff]
structure Exit.WellFormed (g : Graph) (e : Exit) : Prop where
  one : e.next = none ↔ e.isEnd = true
  next : ∀ name ∈ e.next, g.Names name

/-! ## Parts of states -/

/-- The rules for what a state takes of its input and gives as its output. -/
@[mk_iff]
structure Scope.WellFormed (s : Scope) : Prop where
  input : ∀ text ∈ s.inputPath.path?, Path.isLenient text = true
  output : ∀ text ∈ s.outputPath.path?, Path.isLenient text = true

/-- The rules for how work is fed and where its result goes. -/
@[mk_iff]
structure Work.WellFormed (limit : Nat) (w : Work) : Prop where
  resultPath : ∀ text ∈ w.resultPath.path?, Path.IsReference text
  parameters : ∀ t ∈ w.parameters, Template.WellFormed limit t
  resultSelector : ∀ t ∈ w.resultSelector, Template.WellFormed limit t

/-- The rules for a number of seconds. -/
@[mk_iff]
structure Limit.WellFormed (l : Limit) : Prop where
  positive : ∀ n ∈ l.seconds, 0 < n
  one : l.seconds = none ∨ l.path = none
  path : ∀ text ∈ l.path, Path.IsReference text

/-! ## Types of states -/

/-- The rules for a task. -/
structure Task.WellFormed (limit : Nat) (g : Graph) (t : Task) : Prop where
  resource : ∃ c ∈ t.resource.toList, Text.isBlank c = false
  timeout : t.timeout.WellFormed
  heartbeat : t.heartbeat.WellFormed
  shorter : ∀ n ∈ t.timeout.seconds, ∀ m ∈ t.heartbeat.seconds, m < n
  scope : t.scope.WellFormed
  work : t.work.WellFormed limit
  recovery : t.recovery.WellFormed g
  exit : t.exit.WellFormed g

/-- The rules for a pass. -/
@[mk_iff]
structure Pass.WellFormed (limit : Nat) (g : Graph) (p : Pass) : Prop where
  scope : p.scope.WellFormed
  resultPath : ∀ text ∈ p.resultPath.path?, Path.IsReference text
  parameters : ∀ t ∈ p.parameters, Template.WellFormed limit t
  exit : p.exit.WellFormed g

/-- The rules for a choice. -/
@[mk_iff]
structure Choice.WellFormed (g : Graph) (c : Choice) : Prop where
  nonempty : c.rules ≠ []
  next : ∀ r ∈ c.rules, g.Names r.next
  condition : ∀ r ∈ c.rules, r.condition.WellFormed
  default : ∀ name ∈ c.default, g.Names name
  scope : c.scope.WellFormed

/-- The rules for a wait. -/
@[mk_iff]
structure Wait.WellFormed (g : Graph) (w : Wait) : Prop where
  one : [w.seconds.isSome, w.secondsPath.isSome, w.timestamp.isSome, w.timestampPath.isSome].count
    true = 1
  seconds : ∀ n ∈ w.seconds, 0 ≤ n
  secondsPath : ∀ text ∈ w.secondsPath, Path.IsReference text
  timestamp : ∀ text ∈ w.timestamp, ∃ t, Timestamp.parse? text = some t
  timestampPath : ∀ text ∈ w.timestampPath, Path.IsReference text
  scope : w.scope.WellFormed
  exit : w.exit.WellFormed g

/-- A text is a path into one of the documents, or a call within the limit. -/
def Fail.IsDynamic (limit : Nat) (text : String) : Prop :=
  (∃ source path, Path.scoped? text = some (source, path) ∧ Path.IsReference path) ∨
    Path.scoped? text = none ∧ Call.IsCall limit text

/-- The rules for a failure. -/
@[mk_iff]
structure Fail.WellFormed (limit : Nat) (f : Fail) : Prop where
  error : f.error = none ∨ f.errorPath = none
  cause : f.cause = none ∨ f.causePath = none
  errorPath : ∀ text ∈ f.errorPath, Fail.IsDynamic limit text
  causePath : ∀ text ∈ f.causePath, Fail.IsDynamic limit text

/-- The rules for a parallel state, without its branches. -/
@[mk_iff]
structure Parallel.WellFormed (limit : Nat) (g : Graph) (p : Parallel) : Prop where
  scope : p.scope.WellFormed
  work : p.work.WellFormed limit
  recovery : p.recovery.WellFormed g
  exit : p.exit.WellFormed g

/-- The rules for a map, without its iterator. -/
@[mk_iff]
structure Each.WellFormed (limit : Nat) (g : Graph) (m : Each) : Prop where
  concurrency : ∀ n ∈ m.maxConcurrency, 0 ≤ n
  itemsPath : ∀ text ∈ m.itemsPath, Path.IsReference text
  scope : m.scope.WellFormed
  work : m.work.WellFormed limit
  recovery : m.recovery.WellFormed g
  exit : m.exit.WellFormed g

/-- The rules for a state of a graph, without the graphs inside it. -/
def WellFormed (limit : Nat) (g : Graph) : State → Prop
  | .task t => t.WellFormed limit g
  | .pass p => p.WellFormed limit g
  | .choice c => c.WellFormed g
  | .wait w => w.WellFormed g
  | .succeed s => s.scope.WellFormed
  | .fail f => f.WellFormed limit
  | .parallel p branches => branches ≠ [] ∧ p.WellFormed limit g
  | .map m iterator => iterator ≠ none ∧ m.WellFormed limit g

end State

/-! ## Graphs -/

/-- The rules for a graph, without the graphs inside it. -/
structure Graph.WellFormed (limit : Nat) (g : Graph) : Prop where
  nonempty : g.states ≠ []
  start : g.startAt ≠ "" ∧ g.Names g.startAt
  state : ∀ name s, (name, s) ∈ g.states → s.WellFormed limit g

/-- How many graphs a place stands inside: the branches and iterators on the way there. -/
def Validation.Place.depth (p : Place) : Nat :=
  p.countP fun
    | .branch _ | .iterator => true
    | .state _ | .choice _ | .retry _ | .catcher _ => false

/-- The rules for a definition: those for every graph inside it, and the limit of nesting. -/
structure Definition.WellFormed (settings : Settings.Validation) (d : Definition) : Prop where
  timeout : ∀ n ∈ d.timeoutSeconds, 0 < n
  graph : ∀ path g, d.graph.Inside path g → g.WellFormed settings.maxIntrinsicDepth
  depth : ∀ path g, d.graph.Inside path g → path.depth ≤ settings.maxBranchDepth

end StatesLang
