import StatesLang.Environment.Basic

/-!
# Arguments of the command line

* `Command`: what can be asked for; `Invocation`: a command with the options in front of it.
* `Stop`: why no command is run.
* `Word.ofArgument`: what an argument looks like.
* `readGiven`: the operands and options of a command, in any order.
* `Invocation.parse`: the invocation that the arguments ask for.
-/

namespace StatesLang.CommandLine

/-- What can be asked for. -/
inductive Command
  | validate (file : String)
  | format (file : String)
  | intrinsic (expression input context : String)
  | choose (file state input : String)
deriving DecidableEq

/-- A command, and the options that stand in front of it. -/
structure Invocation where
  /-- The file with settings. -/
  settings : Option String
  verbose : Bool
  command : Command
deriving DecidableEq

/-- Why no command is run: help or the version is asked for, or the arguments ask for nothing that
there is. -/
inductive Stop
  | help
  | version
  | misuse
deriving DecidableEq

/-! ## Words -/

/-- What an argument looks like: the end of all options, an option with a long name and perhaps its
value, some options of one letter, or an operand. -/
inductive Word
  | separator
  | long (name : String) (value : Option String)
  | short (letters : List Char)
  | operand
deriving DecidableEq

/-- What an argument looks like. -/
def Word.ofArgument (arg : String) : Word :=
  match arg.toList with
  | ['-', '-'] => .separator
  | '-' :: '-' :: cs =>
    let value := match cs.dropWhile (· != '=') with
      | _ :: value => some (String.ofList value)
      | [] => none
    .long (String.ofList (cs.takeWhile (· != '='))) value
  | '-' :: c :: cs => .short (c :: cs)
  | _ => .operand

/-- The value of an option: the one attached to it, or else the next argument, which must not look
like an option. Also the arguments that follow. -/
def takeValue : Option String → List String → Except Stop (String × List String)
  | some value, rest => .ok (value, rest)
  | none, arg :: rest =>
    if Word.ofArgument arg = .operand then .ok (arg, rest) else .error .misuse
  | none, [] => .error .misuse

theorem length_of_takeValue {value : Option String} {args rest : List String} {taken : String}
    (h : takeValue value args = .ok (taken, rest)) : rest.length ≤ args.length := by
  unfold takeValue at h
  split at h
  · simp only [Except.ok.injEq, Prod.mk.injEq] at h
    exact Nat.le_of_eq (by rw [h.2])
  · split at h
    · simp only [Except.ok.injEq, Prod.mk.injEq] at h
      rw [← h.2]
      simp
    · cases h
  · cases h

/-! ## Operands and options of a command -/

/-- How many operands a command takes, and the names of its options. -/
structure Form where
  operands : Nat
  options : List String

/-- The operands and options that are given, each in order. -/
structure Given where
  operands : List String := []
  options : List (String × String) := []
deriving DecidableEq

/-- One more operand. -/
def Given.withOperand (g : Given) (form : Form) (arg : String) : Except Stop Given :=
  if g.operands.length < form.operands then .ok { g with operands := g.operands ++ [arg] }
  else .error .misuse

/-- One more option. None may be given twice. -/
def Given.withOption (g : Given) (form : Form) (name value : String) : Except Stop Given :=
  if name ∈ form.options ∧ (g.options.lookup name).isNone then
    .ok { g with options := g.options ++ [(name, value)] }
  else .error .misuse

/-- The operands and options of a command. Behind a separator all arguments are operands. -/
def readGiven (form : Form) (args : List String) (g : Given) : Except Stop Given :=
  match args with
  | [] => .ok g
  | arg :: rest =>
    match Word.ofArgument arg with
    | .separator => rest.foldlM (fun g arg => g.withOperand form arg) g
    | .operand => do readGiven form rest (← g.withOperand form arg)
    | .short letters => .error (if letters.head? = some 'h' then .help else .misuse)
    | .long name value =>
      if name = "help" ∧ value = none then .error .help
      else if name ∈ form.options then
        match h : takeValue value rest with
        | .ok (value, rest') =>
          have := length_of_takeValue h
          do readGiven form rest' (← g.withOption form name value)
        | .error e => .error e
      else .error .misuse
termination_by args.length

/-- The command with a name. -/
def Command.parse (name : String) (args : List String) : Except Stop Command :=
  match name with
  | "validate" => do
    let g ← readGiven ⟨1, []⟩ args {}
    match g.operands with
    | [file] => return .validate file
    | _ => .error .misuse
  | "format" => do
    let g ← readGiven ⟨1, []⟩ args {}
    match g.operands with
    | [file] => return .format file
    | _ => .error .misuse
  | "intrinsic" => do
    let g ← readGiven ⟨1, ["input", "context"]⟩ args {}
    let document (name : String) : String := (g.options.lookup name).getD "\x7b\x7d"
    match g.operands with
    | [expression] => return .intrinsic expression (document "input") (document "context")
    | _ => .error .misuse
  | "choose" => do
    let g ← readGiven ⟨2, ["input"]⟩ args {}
    match g.operands, g.options.lookup "input" with
    | [file, state], some input => return .choose file state input
    | _, _ => .error .misuse
  | _ => .error .misuse

/-- The names of the commands. -/
def commandNames : List String := ["validate", "format", "intrinsic", "choose"]

/-! ## Options in front of the command -/

/-- The options in front of the command. -/
structure Globals where
  settings : Option String := none
  verbose : Bool := false
deriving DecidableEq

/-- Asks for verbosity, which may be asked for once. -/
def Globals.withVerbose (g : Globals) : Except Stop Globals :=
  if g.verbose then .error .misuse else .ok { g with verbose := true }

/-- Names the file with settings, which may be named once. -/
def Globals.withSettings (g : Globals) (file : String) : Except Stop Globals :=
  if g.settings.isSome then .error .misuse else .ok { g with settings := some file }

/-- The options of one letter. -/
def Globals.withLetters (g : Globals) : List Char → Except Stop Globals
  | [] => .ok g
  | 'v' :: cs => do withLetters (← g.withVerbose) cs
  | 'V' :: _ => .error .version
  | 'h' :: _ => .error .help
  | _ => .error .misuse

/-- What the arguments behind the word `help` ask for. -/
def helpOn : List String → Stop
  | [] => .help
  | [name] => if name = "help" ∨ name ∈ commandNames then .help else .misuse
  | _ => .misuse

/-- The options in front of the command, its name, and the arguments behind it. -/
def readGlobals (args : List String) (g : Globals) :
    Except Stop (Globals × String × List String) :=
  match args with
  | [] => .error .misuse
  | arg :: rest =>
    match Word.ofArgument arg with
    | .separator => .error .misuse
    | .operand => if arg = "help" then .error (helpOn rest) else .ok (g, arg, rest)
    | .short letters => do readGlobals rest (← g.withLetters letters)
    | .long "help" none => .error .help
    | .long "version" none => .error .version
    | .long "verbose" none => do readGlobals rest (← g.withVerbose)
    | .long "config" value =>
      match h : takeValue value rest with
      | .ok (file, rest') =>
        have := length_of_takeValue h
        do readGlobals rest' (← g.withSettings file)
      | .error e => .error e
    | .long _ _ => .error .misuse
termination_by args.length

/-- The variable that names the file with settings if no option does. -/
def settingsVariable : String := "ASL_CONFIG"

/-- The invocation that the arguments ask for. -/
def Invocation.parse (vars : Variables) (args : List String) : Except Stop Invocation := do
  let (g, name, rest) ← readGlobals args {}
  let command ← Command.parse name rest
  return ⟨g.settings.orElse fun _ => vars.lookup settingsVariable, g.verbose, command⟩

end StatesLang.CommandLine
