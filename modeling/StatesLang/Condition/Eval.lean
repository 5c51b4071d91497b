import StatesLang.Condition.Basic
import StatesLang.Path.Parser
import StatesLang.Regex

/-!
# Evaluating conditions

Evaluation is total: a path that leads nowhere and a value of another kind make a comparison false.
A wildcard pattern is written as a regular expression, which is left to an engine for these.

* `Wildcard.expression`: the regular expression of a pattern.
* `Wildcard.matchesWith`: whether a pattern matches a whole text, by an engine;
  `Wildcard.matchesText`: the same by that of `Regex.compile?`.
* `Condition.resolve`: the value that a comparison reads.
* `Condition.holdsWith`: whether a comparison of a value with a literal is true;
  `Condition.holdsBetween`: the same for two values of a kind.
* `Condition.eval`: whether a document fulfils a condition.
-/

namespace StatesLang.Wildcard

/-- The parts of the expression of a pattern. A star stands for any run of characters, a question
mark for any one. A backslash makes the next character stand for itself; at the end it stands for
itself. -/
def parts : List Char → List Char
  | [] => []
  | '*' :: rest => '.' :: '*' :: parts rest
  | '?' :: rest => '.' :: parts rest
  | ['\\'] => Regex.escape '\\'
  | '\\' :: c :: rest => Regex.escape c ++ parts rest
  | c :: rest => Regex.escape c ++ parts rest

/-- The expression of a pattern, from the start of a text to its end. -/
def expression (pattern : String) : String :=
  String.ofList ('(' :: '?' :: 's' :: ')' :: '^' :: (parts pattern.toList ++ ['$']))

/-- Whether a pattern matches a whole text. A pattern that the engine does not take matches
nothing. -/
def matchesWith (engine : Regex.Engine) (pattern text : String) : Bool :=
  match engine (expression pattern) with
  | some test => test text
  | none => false

/-- Whether a pattern matches a whole text. -/
def matchesText (pattern text : String) : Bool :=
  matchesWith Regex.compile? pattern text

end StatesLang.Wildcard

namespace StatesLang.Condition

/-- The value at a path. The empty path stands for the whole document; only objects have others. -/
def resolve (document : Json) (path : String) : Option Json :=
  if path = "" then some document
  else
    match document with
    | .object _ => Path.selectText document path
    | _ => none

/-- Whether an operator accepts the order of two values. -/
def Operator.accepts : Operator → Ordering → Bool
  | .eq, o => o == .eq
  | .gt, o => o == .gt
  | .gte, o => o != .lt
  | .lt, o => o == .lt
  | .lte, o => o != .gt
  | .wildcard, _ => false

/-- Whether a comparison of a value with a literal is true. Truth values can only be equal or
not. -/
def holdsWith (op : Operator) : (actual : Json) → (expected : Literal) → Bool
  | .string a, .string e =>
    if op = .wildcard then Wildcard.matchesText e a else op.accepts (Ord.compare a e)
  | .number a, .numeric e => op.accepts (a.compare e)
  | .bool a, .boolean e => op == .eq && a == e
  | .string a, .timestamp e =>
    match Timestamp.parse? a with
    | some a => op.accepts (a.compare e)
    | none => false
  | _, _ => false

/-- Whether a comparison of two values as values of a kind is true. No value is a pattern. -/
def holdsBetween (op : Operator) (kind : Kind) (actual expected : Json) : Bool :=
  if op = .wildcard then false
  else
    match kind, actual, expected with
    | .string, .string a, .string e => op.accepts (Ord.compare a e)
    | .numeric, .number a, .number e => op.accepts (a.compare e)
    | .boolean, .bool a, .bool e => op == .eq && a == e
    | .timestamp, .string a, .string e =>
      match Timestamp.parse? a, Timestamp.parse? e with
      | some a, some e => op.accepts (a.compare e)
      | _, _ => false
    | _, _, _ => false

/-- Whether a value is in a class. -/
def TypeTest.classify : TypeTest → Json → Bool
  | .isNull, .null => true
  | .isPresent, _ => true
  | .isNumeric, .number _ => true
  | .isString, .string _ => true
  | .isBoolean, .bool _ => true
  | .isTimestamp, .string s => (Timestamp.parse? s).isSome
  | _, _ => false

/-- A comparison of the value at a path with a literal. -/
def evalCompare (document : Json) (path : String) (op : Operator) (expected : Literal) : Bool :=
  match resolve document path with
  | some actual => holdsWith op actual expected
  | none => false

/-- A comparison of the values at two paths. -/
def evalComparePath (document : Json) (path : String) (op : Operator) (kind : Kind)
    (expectedPath : String) : Bool :=
  match resolve document path, resolve document expectedPath with
  | some actual, some expected => holdsBetween op kind actual expected
  | _, _ => false

/-- A test of the value at a path. Only the test for presence can come out where there is none. -/
def evalTest (document : Json) (path : String) (t : TypeTest) (expected : Bool) : Bool :=
  match t, resolve document path with
  | .isPresent, found => found.isSome == expected
  | _, none => false
  | _, some value => t.classify value == expected

mutual

/-- Whether a document fulfils a condition. -/
def eval (document : Json) : Condition → Bool
  | .compare path op expected => evalCompare document path op expected
  | .comparePath path op kind expectedPath => evalComparePath document path op kind expectedPath
  | .test path t expected => evalTest document path t expected
  | .and children => evalAll document children
  | .or children => evalAny document children
  | .not child => !eval document child

/-- Whether a document fulfils all of some conditions. -/
def evalAll (document : Json) : List Condition → Bool
  | [] => true
  | c :: cs => eval document c && evalAll document cs

/-- Whether a document fulfils one of some conditions. -/
def evalAny (document : Json) : List Condition → Bool
  | [] => false
  | c :: cs => eval document c || evalAny document cs

end

end StatesLang.Condition
