import StatesLang.Json.Basic

/-!
# Reference paths

A reference path identifies at most one node of a document.

* `Path.Step`: one member or one index; `Path.Step.render` writes it in brackets.
* `Path`: a path as it was written, with its steps; `Path.canonical` writes the steps.
* `Path.follow`, `Path.select`: the node that steps lead to.
-/

namespace StatesLang

/-- One step of a path. -/
inductive Path.Step
  | field (name : String)
  | index (i : UInt64)
deriving DecidableEq

/-- A reference path: the text as it was written and the steps that it says. -/
structure Path where
  text : String
  steps : List Path.Step
deriving DecidableEq

namespace Path

/-- A text with others in the place of each character that is `old`. -/
def replaceChar (old : Char) (new cs : List Char) : List Char :=
  cs.flatMap fun c => if c = old then new else [c]

/-- A name with a backslash before each backslash, and then one before each single quote. -/
def escapeName (name : List Char) : List Char :=
  replaceChar '\'' ['\\', '\''] (replaceChar '\\' ['\\', '\\'] name)

/-- The characters of a step in brackets: a quoted name or an index. -/
def Step.renderChars : Step → List Char
  | .field name => '[' :: '\'' :: escapeName name.toList ++ ['\'', ']']
  | .index i => '[' :: (toString i.toNat).toList ++ [']']

/-- A step in brackets. -/
def Step.render (s : Step) : String :=
  String.ofList s.renderChars

/-- The text of steps, each in brackets, behind the root `$`. -/
def renderSteps (steps : List Step) : String :=
  String.ofList ('$' :: steps.flatMap Step.renderChars)

/-- The path with every step in brackets. -/
def canonical (p : Path) : String :=
  renderSteps p.steps

/-- Whether the path is the whole document. -/
def isRoot (p : Path) : Bool :=
  p.steps.isEmpty

/-- The node one step below a node: names lead into objects only, indexes into arrays only. -/
def Step.follow : Step → Json → Option Json
  | .field name, .object members => Json.lookup name members
  | .index i, .array items => items[i.toNat]?
  | _, _ => none

/-- The node that steps lead to. -/
def follow (document : Json) : List Step → Option Json
  | [] => some document
  | step :: rest => (step.follow document).bind (follow · rest)

/-- The node that the path identifies, if the document has it. -/
def select (p : Path) (document : Json) : Option Json :=
  follow document p.steps

end Path

end StatesLang
