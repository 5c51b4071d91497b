import StatesLang.Environment.Basic
import StatesLang.Text.Classes

/-!
# Variables out of a text of assignments

A line assigns a text to a variable, as `NAME=value` or `export NAME=value`. Blank lines and lines
that start with `#` assign nothing.

* `Assignment.valueChars?`: the text that a value writes, with quotes, escapes and other variables.
* `Assignment.parseLine?`: the assignment of a line.
* `Variables.assignAll?`: the variables after the assignments of a text. What a variable holds
  already stays as it is, and the first line that cannot be read ends the text. No variable can hold
  the character U+0000.
-/

namespace StatesLang

namespace Assignment

/-! ## Values -/

/-- Where in a value a character stands: in the open or between double quotes, after a backslash,
between single quotes, in the name of a variable, in such a name between braces, in the blanks after
the value, or in a remark. -/
inductive Mode
  | plain
  | escaped
  | verbatim
  | name (before : List Char)
  | braced (before : List Char)
  | ended
  | remark
deriving DecidableEq

/-- What was read of a value: its text so far in reverse, where it stands, and whether it stands
between double quotes. -/
structure Reading where
  text : List Char := []
  mode : Mode := .plain
  quoted : Bool := false
deriving DecidableEq

/-- The text of a variable. One that is not there is empty. -/
def textOf (vars : Variables) (name : List Char) : List Char :=
  ((vars.text? (String.ofList name)).getD "").toList

/-- Adds the text of a variable, whose name is given in reverse. -/
def Reading.substitute (vars : Variables) (r : Reading) (name : List Char) : Reading :=
  { r with text := (textOf vars name.reverse).reverse ++ r.text }

/-- The character that stands after a backslash, if it may. -/
def escape? (c : Char) : Option Char :=
  if c = 'n' then some '\n'
  else if c = '\\' ∨ c = '\'' ∨ c = '"' ∨ c = '$' ∨ c = ' ' then some c
  else none

/-- Reads a character that stands in the open or between double quotes. -/
def Reading.plainStep (r : Reading) (c : Char) : Reading :=
  if c = '$' then { r with mode := .name [] }
  else if c = '"' then { r with quoted := !r.quoted }
  else if c = '\\' then { r with mode := .escaped }
  else if !r.quoted && c = '\'' then { r with mode := .verbatim }
  else if !r.quoted && (c = ' ' || c = '\t') then { r with mode := .ended }
  else { r with text := c :: r.text }

/-- Reads a character of a value. A character that ends a name without braces stands for itself,
unless it starts the next name. -/
def Reading.step (vars : Variables) (r : Reading) (c : Char) : Option Reading :=
  match r.mode with
  | .remark => some r
  | .ended =>
    if c = ' ' ∨ c = '\t' then some r
    else if c = '#' then some { r with mode := .remark }
    else none
  | .escaped => (escape? c).map fun d => { r with text := d :: r.text, mode := .plain }
  | .verbatim =>
    some (if c = '\'' then { r with mode := .plain } else { r with text := c :: r.text })
  | .name before =>
    if Text.isAlphanumeric c then some { r with mode := .name (c :: before) }
    else if c = '\x7b' ∧ before = [] then some { r with mode := .braced [] }
    else
      let r := r.substitute vars before
      some (if c = '$' then { r with mode := .name [] }
        else { r with text := c :: r.text, mode := .plain })
  | .braced before =>
    if c ≠ '\x7d' then some { r with mode := .braced (c :: before) }
    else some { r.substitute vars before with mode := .plain }
  | .plain => some (r.plainStep c)

/-- The text of a value that ends here. Quotes and braces must be closed. -/
def Reading.finish? (vars : Variables) (r : Reading) : Option (List Char) :=
  if r.quoted then none
  else
    match r.mode with
    | .verbatim | .braced _ => none
    | .name before => some (r.substitute vars before).text.reverse
    | .plain | .escaped | .ended | .remark => some r.text.reverse

/-- The text that a value writes. -/
def valueChars? (vars : Variables) (cs : List Char) : Option (List Char) := do
  let r ← cs.foldlM (Reading.step vars) {}
  r.finish? vars

/-! ## Lines -/

/-- The name at the start of a line, and what follows it and its blanks. -/
def splitName? (cs : List Char) : Option (List Char × List Char) :=
  let isInner (c : Char) : Bool := c.isAlphanum || c == '_' || c == '.'
  match cs with
  | c :: _ =>
    if c.isAlpha || c == '_' then
      some (cs.takeWhile isInner, Text.skipBlanks (cs.dropWhile isInner))
    else none
  | [] => none

/-- The name that a line assigns to, and what follows the sign of equality. The word `export` in
front of a name says nothing, and is a name if it has no other behind it. -/
def splitAssignment? (cs : List Char) : Option (List Char × List Char) := do
  let (name, rest) ← splitName? cs
  match rest with
  | '=' :: value => return (name, Text.skipBlanks value)
  | _ =>
    if name = "export".toList then
      match ← splitName? rest with
      | (name, '=' :: value) => return (name, Text.skipBlanks value)
      | _ => none
    else none

/-- What a line assigns: nothing, or a text to a variable. -/
def parseLine? (vars : Variables) (line : String) : Option (Option (String × String)) :=
  match Text.trimChars line.toList with
  | [] | '#' :: _ => some none
  | cs => do
    let (name, value) ← splitAssignment? cs
    match value with
    | [] | '#' :: _ => return some (String.ofList name, "")
    | _ => return some (String.ofList name, String.ofList (← valueChars? vars value))

end Assignment

/-- The variables with one more, unless it is there already. There are none if it cannot hold the
text. -/
def Variables.assign? (vars : Variables) (name value : String) : Option Variables :=
  if (vars.lookup name).isSome then some vars
  else if '\x00' ∈ value.toList then none
  else some (vars ++ [(name, value)])

/-- The variables after the assignments of some lines. -/
def Variables.assignLines? (vars : Variables) : List String → Option Variables
  | [] => some vars
  | line :: rest =>
    match Assignment.parseLine? vars line with
    | some (some (name, value)) => (vars.assign? name value).bind (assignLines? · rest)
    | some none => assignLines? vars rest
    | none => some vars

/-- The variables after the assignments of a text. -/
def Variables.assignAll? (vars : Variables) (text : String) : Option Variables :=
  vars.assignLines? (text.splitOn "\n")

end StatesLang
