import StatesLang.Number.Literal

/-!
# Places of settings

* `Settings.Step`: a member of a group or an item of a list.
* `Settings.lowerCase`: names of settings do not tell cases apart.
* `Settings.steps?`: the steps that follow a name, as `.name` and `[index]`.
* `Settings.Place.parse`: the place that a key names. A key that is no path names one member.
-/

namespace StatesLang.Settings

/-- A step from a value to one of its parts. Items may be counted from the end. -/
inductive Step
  | member (name : String)
  | item (index : Int)
deriving DecidableEq

/-- The steps from all settings to one of them. -/
abbrev Place := List Step

/-- The lower case of a character among those that names of settings have. Of all characters beyond
ASCII, only the Kelvin sign has one of them as its lower case. -/
def lowerChar (c : Char) : Char :=
  if c = '\u212a' then 'k' else c.toLower

/-- A name in lower case. -/
def lowerCase (name : String) : String :=
  name.map lowerChar

/-- The characters of a name on a path. -/
def isNameChar (c : Char) : Bool :=
  c.isAlphanum || c == ' ' || c == '_' || c == '-'

/-- The index that stands between brackets, perhaps among blanks. -/
def index? (cs : List Char) : Option Int :=
  let isGap (c : Char) : Bool := c == ' ' || c == '\t'
  let cs := ((cs.dropWhile isGap).reverse.dropWhile isGap).reverse
  match cs with
  | '+' :: _ => none
  | cs => (Literal.int64? cs).map Int64.toInt

/-- The steps that follow a name. -/
def steps? : List Char → Option (List Step)
  | [] => some []
  | '.' :: cs =>
    let name := cs.takeWhile isNameChar
    if name = [] then none
    else (steps? (cs.dropWhile isNameChar)).map (.member (String.ofList name) :: ·)
  | '[' :: cs =>
    match _ : cs.dropWhile (· != ']') with
    | _ :: rest => do
      let i ← index? (cs.takeWhile (· != ']'))
      let steps ← steps? rest
      return .item i :: steps
    | [] => none
  | _ => none
termination_by cs => cs.length
decreasing_by
  · have := (List.dropWhile_sublist isNameChar (l := cs)).length_le
    simp
    omega
  · rename_i h
    have := (List.dropWhile_sublist (· != ']') (l := cs)).length_le
    rw [h] at this
    simp at this
    simp
    omega

/-- The place that a key names. -/
def Place.parse (key : String) : Place :=
  let cs := key.toList
  let name := cs.takeWhile isNameChar
  match name, steps? (cs.dropWhile isNameChar) with
  | _ :: _, some steps => .member (String.ofList name) :: steps
  | _, _ => [.member key]

end StatesLang.Settings
