/-!
# Regular expressions

The expressions of characters, any characters, runs of any characters and the ends of a text. A line
end is a character like others.

* `Regex.escape`: a character as an expression.
* `Regex.Node`, `Regex.parse?`: the nodes of an expression, one for each part of it.
* `Regex.row`, `Regex.occurs`: where nodes match in a text, and whether they match anywhere in it.
* `Regex.automatonSize`, `Regex.isSmall`: how large the automata of nodes are, and whether they are
  small enough.
* `Regex.Engine`, `Regex.compile?`: what makes tests of texts out of expressions.
-/

namespace StatesLang.Regex

/-! ## Expressions -/

/-- The characters that make up the parts of an expression. -/
def operators : List Char :=
  ['\\', '.', '+', '*', '?', '(', ')', '|', '[', ']', '\x7b', '\x7d', '^', '$']

/-- The characters that are written with a backslash where they stand for themselves. Some need it
only within classes. -/
def metaCharacters : List Char :=
  operators ++ ['#', '&', '-', '~']

/-- A character as an expression. -/
def escape (c : Char) : List Char :=
  if c ∈ metaCharacters then ['\\', c] else [c]

/-- A part of an expression: the start or the end of the text, any one character, any run of
characters, or a given character. -/
inductive Node
  | start
  | finish
  | any
  | run
  | exactly (c : Char)
deriving DecidableEq

/-- Reads the parts of an expression. -/
def nodes? : List Char → Option (List Node)
  | [] => some []
  | '^' :: rest => (nodes? rest).map (.start :: ·)
  | '$' :: rest => (nodes? rest).map (.finish :: ·)
  | '.' :: '*' :: rest => (nodes? rest).map (.run :: ·)
  | '.' :: rest => (nodes? rest).map (.any :: ·)
  | '\\' :: c :: rest =>
    if c ∈ metaCharacters then (nodes? rest).map (.exactly c :: ·) else none
  | c :: rest => if c ∈ operators then none else (nodes? rest).map (.exactly c :: ·)

/-- Reads an expression. The flag in front lets `.` stand for a line end, too. -/
def parse? (expression : String) : Option (List Node) :=
  match expression.toList with
  | '(' :: '?' :: 's' :: ')' :: rest => nodes? rest
  | _ => none

/-! ## Matching -/

/-- Whether any entry from a place on is true, for every place. -/
def orAfter : List Bool → List Bool
  | [] => []
  | b :: rest =>
    let after := orAfter rest
    (b || after.headD false) :: after

/-- The first entry, and false for the others. -/
def onlyFirst : List Bool → List Bool
  | [] => []
  | b :: rest => b :: rest.map fun _ => false

/-- The last entry, and false for the others. -/
def onlyLast : List Bool → List Bool
  | [] => []
  | [b] => [b]
  | _ :: rest => false :: onlyLast rest

/-- Whether the nodes match from a place in a text on, for every place from the front to the end. -/
def row (cs : List Char) : List Node → List Bool
  | [] => List.replicate (cs.length + 1) true
  | .start :: rest => onlyFirst (row cs rest)
  | .finish :: rest => onlyLast (row cs rest)
  | .any :: rest => (row cs rest).tail ++ [false]
  | .run :: rest => orAfter (row cs rest)
  | .exactly c :: rest => List.zipWith (fun d b => d == c && b) cs (row cs rest).tail ++ [false]

/-- Whether the nodes match anywhere in a text. -/
def occurs (ns : List Node) (text : String) : Bool :=
  (row text.toList ns).contains true

/-! ## Size

An expression stands for two automata that read the bytes of a text, one from the front and one from
the back. Automata that are too large are not made. -/

/-- The end from which an automaton reads a text. -/
inductive Direction
  | front
  | back
deriving DecidableEq

/-- The size of a state of an automaton, in bytes. -/
def stateSize : Nat := 32

/-- The size of an edge of a state with several edges, in bytes. -/
def edgeSize : Nat := 8

/-- The size of a link to a state that is reached without reading, in bytes. -/
def linkSize : Nat := 4

/-- The largest size of an automaton, in bytes. -/
def maxSize : Nat := 10 * 1024 * 1024

/-- The size of what reads any one character. From the front, all characters share the states for
their last bytes. From the back, each of the nine forms of a character has states of its own. -/
def anySize : Direction → Nat
  | .front => 9 * stateSize + 16 * edgeSize
  | .back => 29 * stateSize + 9 * linkSize

/-- The size of what reads a part of an expression. -/
def Node.size (d : Direction) : Node → Nat
  | .start | .finish => stateSize
  | .any => anySize d
  | .run => anySize d + stateSize + 2 * linkSize
  | .exactly c => c.utf8Size * stateSize

/-- The number of states around the nodes. Only from the front, two of them mark the match. -/
def frameStates : Direction → Nat
  | .front => 4
  | .back => 2

/-- The size of the automaton of some nodes. -/
def automatonSize (d : Direction) (ns : List Node) : Nat :=
  ns.foldl (fun size n => size + n.size d) (frameStates d * stateSize)

/-- Whether both automata of some nodes are small enough. -/
def isSmall (ns : List Node) : Bool :=
  automatonSize .front ns ≤ maxSize && automatonSize .back ns ≤ maxSize

/-! ## Engines -/

/-- What makes a test of texts out of an expression, unless it cannot. -/
abbrev Engine := String → Option (String → Bool)

/-- The test whether an expression matches anywhere in a text, if its automata are small enough. -/
def compile? : Engine := fun expression => do
  let ns ← parse? expression
  if isSmall ns then some (occurs ns) else none

end StatesLang.Regex
