import StatesLang.Builtin.Standard
import StatesLang.CommandLine.Arguments
import StatesLang.Environment.Assignments
import StatesLang.Error
import StatesLang.Settings.Layers

/-!
# Running the command line

* `Failure`: why a command fails, and its wording.
* `Outcome`: what a command prints, and why it failed if it did.
* `execute`: runs a command; `run`: runs what the arguments ask for.
* `Report`: what is left of a run; `Report.broken`: of one that breaks off.
-/

namespace StatesLang.CommandLine

/-! ## Failures -/

/-- Why a command fails. -/
inductive Failure
  | settings (e : Settings.LoadError)
  | unreadable (file : String) (fault : FileFault)
  | malformed (file : String) (e : Decode.Error)
  | rejected (file : String)
  | invalid (file : String) (problems : List Validation.Problem)
  | document (option : String) (e : SyntaxError)
  | library (e : Error)

/-- The wording of a failure: what was attempted, and what went wrong. -/
def Failure.message : Failure → String
  | .settings e => s!"failed to load configuration: {e.message}"
  | .unreadable file fault => s!"failed to read {file}: {fault.message}"
  | .malformed file e =>
    let reason := e.message
    s!"failed to parse {file}: {(Error.decode e).message}: {reason}"
  | .rejected file => s!"{file} is not valid"
  | .invalid file problems => s!"{file} is not valid: {(Error.invalid problems).message}"
  | .document option e => s!"{option} is not valid JSON: {e.message}"
  | .library e => e.message

/-! ## Commands -/

/-- What a command prints, and why it failed if it did. -/
structure Outcome where
  output : String
  failure : Option Failure

/-- The outcome of a command that prints one text, unless it fails. -/
def Outcome.ofExcept : Except Failure String → Outcome
  | .ok text => ⟨text ++ "\n", none⟩
  | .error e => ⟨"", some e⟩

/-- The document that an option holds. -/
def readDocument (option text : String) : Except Failure Json :=
  (Json.parse? text).mapError (.document option)

/-- The definition that a file holds. -/
def definitionOf (file : String) (content : Except FileFault String) :
    Except Failure Definition := do
  let text ← content.mapError (.unreadable file)
  (Definition.parse text).mapError (.malformed file)

/-- The machine that a file holds. -/
def machineOf (settings : Settings.Validation) (file : String)
    (content : Except FileFault String) : Except Failure Machine := do
  let d ← definitionOf file content
  (Machine.ofDefinition settings d).mapError (.invalid file)

/-- The lines that list the problems of a file. -/
def problemLines (file : String) (problems : List Validation.Problem) : String :=
  s!"{file} has {problems.length} problem(s):\n" ++
    String.join (problems.map fun p => s!"  {p.place.render} {p.defect.message}\n")

/-- Lists the problems of the definition that a file holds. -/
def validate (settings : Settings.Validation) (file : String)
    (content : Except FileFault String) : Outcome :=
  match definitionOf file content with
  | .error e => ⟨"", some e⟩
  | .ok d =>
    match Validation.problems settings d with
    | [] => ⟨s!"✅ {file} is valid\n", none⟩
    | problems => ⟨problemLines file problems, some (.rejected file)⟩

/-- The canonical text of the definition that a file holds. -/
def format (settings : Settings.Validation) (file : String)
    (content : Except FileFault String) : Except Failure String := do
  let m ← machineOf settings file content
  return m.definition.pretty

/-- The value of an expression. -/
def intrinsic (limits : Settings.Calls) (entropy : UInt64) (expression input context : String) :
    Except Failure String := do
  let input ← readDocument "--input" input
  let context ← readDocument "--context" context
  let value ← ((Registry.standard limits).evaluate entropy expression ⟨input, context⟩).mapError
    fun e => .library (.call e)
  return value.pretty

/-- What is printed where no rule applies and there is no default. -/
def noChoice : String := "States.NoChoiceMatched"

/-- Where a choice of the machine that a file holds goes to. -/
def choose (settings : Settings.Validation) (file state input : String)
    (content : Except FileFault String) : Except Failure String := do
  let m ← machineOf settings file content
  let input ← readDocument "--input" input
  let next? ← (m.choose state input).mapError fun e => .library (.choice e)
  return next?.getD noChoice

variable {m : Type → Type} [Monad m]

/-- Runs a command. -/
def execute (read : FileReader m) (entropy : UInt64) (s : Settings) : Command → m Outcome
  | .validate file => do return validate s.validation file (← read file)
  | .format file => do return .ofExcept (format s.validation file (← read file))
  | .intrinsic expression input context =>
    return .ofExcept (intrinsic s.intrinsics entropy expression input context)
  | .choose file state input => do
    return .ofExcept (choose s.validation file state input (← read file))

/-! ## Runs -/

/-- What is left of a run: the exit code, and the texts on the two streams. -/
structure Report where
  exitCode : Nat
  output : String
  errors : String
deriving DecidableEq

/-- The name and the version of the program. -/
def versionLine : String := "asl 0.1.0\n"

/-- How the program is called. -/
def usage : String :=
  "Usage: asl [--config FILE] [--verbose] COMMAND\n\n" ++
  "Commands:\n" ++
  "  validate FILE                                  List every problem of a state machine\n" ++
  "  format FILE                                    Print a state machine as canonical JSON\n" ++
  "  intrinsic EXPRESSION [--input J] [--context J] Evaluate an intrinsic function expression\n" ++
  "  choose FILE STATE --input J                    Pick the next state of a Choice state\n"

/-- The report of a run without a command. -/
def Stop.report : Stop → Report
  | .help => ⟨0, usage, ""⟩
  | .version => ⟨0, versionLine, ""⟩
  | .misuse => ⟨2, "", usage⟩

/-- The report of a run that breaks off. -/
def Report.broken : Report := ⟨101, "", ""⟩

/-- The report of a command that has run, unless an evaluation broke off. -/
def Outcome.report (o : Outcome) : Report :=
  match o.failure with
  | none => ⟨0, o.output, ""⟩
  | some (.library (.call .oversized)) => .broken
  | some e => ⟨1, o.output, s!"error: {e.message}\n"⟩

/-- The file with assignments to variables. -/
def assignmentsFile : String := ".env"

/-- The variables with the assignments of the file for them, if there is one. There are none if they
cannot be assigned. -/
def readVariables? (read : FileReader m) (vars : Variables) : m (Option Variables) := do
  match ← read assignmentsFile with
  | .ok text => return vars.assignAll? text
  | .error _ => return some vars

/-- Runs what the arguments ask for, with some variables. -/
def runWith (read : FileReader m) (vars : Variables) (entropy : UInt64) (args : List String) :
    m Report := do
  match Invocation.parse vars args with
  | .error stop => return stop.report
  | .ok invocation =>
    match ← Settings.load read vars invocation.settings with
    | .error .noPlace => return .broken
    | .error e => return (Outcome.mk "" (some (.settings e))).report
    | .ok s => return (← execute read entropy s invocation.command).report

/-- Runs what the arguments ask for. -/
def run (read : FileReader m) (vars : Variables) (entropy : UInt64) (args : List String) :
    m Report := do
  match ← readVariables? read vars with
  | some vars => runWith read vars entropy args
  | none => return .broken

end StatesLang.CommandLine
