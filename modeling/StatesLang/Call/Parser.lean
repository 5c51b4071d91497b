import StatesLang.Call.Token
import StatesLang.Number.Literal

/-!
# Reading calls

The parser keeps the calls whose parameters are not complete yet, the innermost one first, and takes
one token, or a name and its parenthesis, at a time.

* `Call.literal?`: the parameter that a bare word says.
* `Call.Open`: a call whose parameters are being read.
* `Call.parseParams`: the parameters of the innermost open call and all that follows.
* `Call.parse`: a whole text, with a limit on the nesting.
-/

namespace StatesLang.Call

/-- Whether a word has a digit and otherwise only characters of numbers. -/
def looksNumeric (word : List Char) : Bool :=
  word.any Char.isDigit &&
    word.all fun c => c.isDigit || c == '+' || c == '-' || c == '.' || c == 'e' || c == 'E'

/-- The parameter that a bare word says: a literal, or a path if it starts with `$`. -/
def literal? (word : List Char) : Option Param :=
  if word = ['n', 'u', 'l', 'l'] then some .null
  else if word = ['t', 'r', 'u', 'e'] then some (.boolean true)
  else if word = ['f', 'a', 'l', 's', 'e'] then some (.boolean false)
  else if word.head? = some '$' then some (.path (String.ofList word))
  else
    match Literal.int64? word with
    | some n => some (.int n)
    | none => if looksNumeric word then (Literal.decimal? word).map .decimal else none

/-- A call whose parameters are being read: its name, the position of its parenthesis and the
parameters so far, the last one first. -/
structure Open where
  name : List Char
  position : Nat
  reversed : List Param

/-- The call, once all its parameters are read. -/
def Open.close (o : Open) : Call :=
  ⟨String.ofList o.name, o.reversed.reverse⟩

/-- The call with one more parameter. -/
def Open.push (o : Open) (p : Param) : Open :=
  { o with reversed := p :: o.reversed }

/-- What may come next among the parameters of a call. -/
inductive Expected
  /-- A parameter or the end, behind the opening parenthesis. -/
  | firstOrEnd
  /-- A parameter, behind a comma. -/
  | param
  /-- A comma or the end, behind a parameter. -/
  | separator
deriving DecidableEq

/-- Reads on inside the innermost open call. Its end hands it to the call around it; behind the end
of the outermost call nothing may follow. -/
def parseParams (limit : Nat) (outer : List Open) (o : Open) (expected : Expected) :
    List Token → Except Defect Call
  | [] => .error (.unclosedParameters o.position)
  | t :: rest =>
    match expected, t.kind with
    | .firstOrEnd, .closing | .separator, .closing =>
      match outer with
      | [] =>
        match rest with
        | [] => .ok o.close
        | t :: _ => .error (.trailing t.first t.position)
      | around :: outer => parseParams limit outer (around.push (.call o.close)) .separator rest
    | .separator, .comma => parseParams limit outer o .param rest
    | .separator, _ => .error (.unexpected t.first t.position)
    | _, .comma | _, .closing => .error (.expectedParameter t.position)
    | _, .opening => .error (.expectedName t.position)
    | _, .defective _ d => .error d
    | _, .quoted s =>
      parseParams limit outer (o.push (.string (String.ofList s))) .separator rest
    | _, .bare _ word =>
      match rest with
      | ⟨.opening, position⟩ :: rest =>
        if limit ≤ outer.length + 1 then .error (.tooDeep limit position)
        else parseParams limit (o :: outer) ⟨word, position, []⟩ .firstOrEnd rest
      | rest =>
        match literal? word with
        | some p => parseParams limit outer (o.push p) .separator rest
        | none => .error (.unrecognized (String.ofList word) t.position)

/-- Reads a call from the tokens of a text that ends at a position. -/
def parseTokens (limit finish : Nat) : List Token → Except Defect Call
  | [] => .error (.expectedName finish)
  | ⟨.bare _ name, _⟩ :: rest =>
    match rest with
    | [] => .error (.expectedParameters finish)
    | ⟨.opening, position⟩ :: rest =>
      if limit = 0 then .error (.tooDeep limit position)
      else parseParams limit [] ⟨name, position, []⟩ .firstOrEnd rest
    | t :: _ => .error (.expectedParameters t.position)
  | ⟨.quoted _, position⟩ :: _ => .error (.unexpectedQuote position)
  | ⟨.defective c d, position⟩ :: _ => .error (if c = '\'' then .unexpectedQuote position else d)
  | t :: _ => .error (.expectedName t.position)

/-- Reads a call whose nesting is within a limit. -/
def parse (limit : Nat) (text : String) : Except Defect Call :=
  parseTokens limit text.length (tokens 0 text.toList)

/-- Whether a text is a call within the usual nesting limit. -/
def isCall (text : String) : Bool :=
  match parse defaultNesting text with
  | .ok _ => true
  | .error _ => false

end StatesLang.Call
