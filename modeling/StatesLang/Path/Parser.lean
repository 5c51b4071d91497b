import StatesLang.Path.Basic
import StatesLang.Number.Literal
import StatesLang.Text.Classes

/-!
# Reading reference paths

Positions count characters from the beginning of the text.

* `Path.Defect`: why a text is no reference path, and its wording.
* `Path.unquotedName`, `Path.quotedName`, `Path.indexer`: the parts of a step.
* `Path.parseSteps`: the steps behind the root; `Path.parse`: a whole path.
* `Path.selectText`: the node that a text identifies; a text that is no path identifies none.
* `Path.isBalanced`: whether brackets and parentheses close again outside quotes, and quotes close;
  `Path.isLenient`: whether a text passes as a path where several nodes may be meant.
-/

namespace StatesLang.Path

/-- Why a text is no reference path. -/
inductive Defect
  | empty
  | noRoot
  | scan
  | unexpected (c : Char) (position : Nat)
  | danglingEscape (position : Nat)
  | invalidInName (c : Char) (position : Nat)
  | unescapedQuote (position : Nat)
  | emptyName (position : Nat)
  | unterminatedName (position : Nat)
  | expectedBracket (position : Nat)
  | unterminatedIndexer (position : Nat)
  | filter
  | wildcard
  | slice
  | union
  | invalidIndex (content : String)
  | selectsNothing
deriving DecidableEq

/-- The wording of a defect. -/
def Defect.message : Defect → String
  | .empty => "path is empty"
  | .noRoot => "path must start with '$'"
  | .scan => "the '..' scan operator is not allowed"
  | .unexpected c p => s!"unexpected character '{c}' at position {p}"
  | .danglingEscape p => s!"dangling escape at position {p}"
  | .invalidInName c p => s!"invalid character '{c}' in field name at position {p}"
  | .unescapedQuote p => s!"unescaped quote in field name at position {p}"
  | .emptyName p => s!"empty field name at position {p}"
  | .unterminatedName p => s!"unterminated quoted field name starting at position {p}"
  | .expectedBracket p => s!"expected ']' at position {p}"
  | .unterminatedIndexer p => s!"unterminated indexer starting at position {p}"
  | .filter => "filter expressions are not allowed"
  | .wildcard => "wildcards are not allowed"
  | .slice => "array slices are not allowed"
  | .union => "unions are not allowed"
  | .invalidIndex content => s!"invalid array index '{content}'"
  | .selectsNothing => "path does not select a value"

/-- A part that was read: what it says, the text behind it and the position of that text. -/
structure Part (α : Type) where
  content : α
  rest : List Char
  position : Nat

/-- Whether two dots stand side by side. -/
def hasScan : List Char → Bool
  | '.' :: '.' :: _ => true
  | _ :: rest => hasScan rest
  | [] => false

/-- A member name behind a dot: up to the next dot or bracket. A backslash makes the next character
part of the name. -/
def unquotedName (position : Nat) : List Char → Except Defect (Part (List Char))
  | [] => .ok ⟨[], [], position⟩
  | ['\\'] => .error (.danglingEscape position)
  | '\\' :: c :: rest => do
    let p ← unquotedName (position + 2) rest
    return { p with content := c :: p.content }
  | c :: rest =>
    if c = '.' ∨ c = '[' then .ok ⟨[], c :: rest, position⟩
    else if c = ']' ∨ c = '*' ∨ c = '?' then .error (.invalidInName c position)
    else if c = '\'' ∨ c = '"' then .error (.unescapedQuote position)
    else do
      let p ← unquotedName (position + 1) rest
      return { p with content := c :: p.content }

/-- A member name between quotes, read behind the opening one at `start`. -/
def quotedName (quote : Char) (start position : Nat) : List Char → Except Defect (Part (List Char))
  | [] => .error (.unterminatedName start)
  | ['\\'] => .error (.danglingEscape position)
  | '\\' :: c :: rest => do
    let p ← quotedName quote start (position + 2) rest
    return { p with content := c :: p.content }
  | c :: rest =>
    if c = quote then .ok ⟨[], rest, position + 1⟩
    else do
      let p ← quotedName quote start (position + 1) rest
      return { p with content := c :: p.content }

/-- The array index that the text between brackets says. -/
def arrayIndex (content : List Char) : Except Defect Step :=
  if content.head? = some '?' then .error .filter
  else if '*' ∈ content then .error .wildcard
  else if ':' ∈ content then .error .slice
  else if ',' ∈ content then .error .union
  else
    match Literal.uint64? content with
    | some i => .ok (.index i)
    | none => .error (.invalidIndex (String.ofList content))

/-- A step in brackets, read behind the opening one. -/
def indexer (position : Nat) : List Char → Except Defect (Part Step)
  | [] => .error (.unterminatedIndexer (position - 1))
  | c :: rest =>
    if c = '\'' ∨ c = '"' then do
      let p ← quotedName c position (position + 1) rest
      match p.rest with
      | ']' :: rest => .ok ⟨.field (String.ofList p.content), rest, p.position + 1⟩
      | _ => .error (.expectedBracket p.position)
    else
      let content := (c :: rest).takeWhile (· ≠ ']')
      match (c :: rest).dropWhile (· ≠ ']') with
      | [] => .error (.unterminatedIndexer (position - 1))
      | _ :: behind => do
        let step ← arrayIndex (Text.trimChars content)
        return ⟨step, behind, position + content.length + 1⟩

/-! ## What is read is behind -/

theorem unquotedName_length {position : Nat} {cs : List Char} {p : Part (List Char)}
    (h : unquotedName position cs = .ok p) : p.rest.length ≤ cs.length := by
  fun_induction unquotedName position cs generalizing p with
  | case1 => cases h; simp
  | case2 => cases h
  | case3 position c rest ih =>
    cases hr : unquotedName (position + 2) rest with
    | error e => rw [hr] at h; cases h
    | ok q => rw [hr] at h; cases h; have := ih hr; simp only [List.length_cons]; omega
  | case4 => cases h; simp
  | case5 => cases h
  | case6 => cases h
  | case7 position c rest =>
    rename_i ih
    cases hr : unquotedName (position + 1) rest with
    | error e => rw [hr] at h; cases h
    | ok q => rw [hr] at h; cases h; have := ih hr; simp only [List.length_cons]; omega

theorem quotedName_length {quote : Char} {start position : Nat} {cs : List Char}
    {p : Part (List Char)} (h : quotedName quote start position cs = .ok p) :
    p.rest.length ≤ cs.length := by
  fun_induction quotedName quote start position cs generalizing p with
  | case1 => cases h
  | case2 => cases h
  | case3 position c rest ih =>
    cases hr : quotedName quote start (position + 2) rest with
    | error e => rw [hr] at h; cases h
    | ok q => rw [hr] at h; cases h; have := ih hr; simp only [List.length_cons]; omega
  | case4 => cases h; simp
  | case5 position c rest =>
    rename_i ih
    cases hr : quotedName quote start (position + 1) rest with
    | error e => rw [hr] at h; cases h
    | ok q => rw [hr] at h; cases h; have := ih hr; simp only [List.length_cons]; omega

theorem indexer_length {position : Nat} {cs : List Char} {p : Part Step}
    (h : indexer position cs = .ok p) : p.rest.length ≤ cs.length := by
  cases cs with
  | nil => cases h
  | cons c rest =>
    by_cases hc : c = '\'' ∨ c = '"'
    · simp only [indexer, hc, if_true] at h
      cases hq : quotedName c position (position + 1) rest with
      | error e => rw [hq] at h; cases h
      | ok q =>
        rw [hq] at h
        have hl := quotedName_length hq
        simp only [bind, Except.bind] at h
        split at h
        · rename_i behind he
          cases h
          rw [he] at hl
          simp only [List.length_cons] at hl ⊢
          omega
        · cases h
    · simp only [indexer, hc, if_false] at h
      split at h
      · cases h
      · rename_i x behind he
        have hl := (List.dropWhile_suffix (l := c :: rest) (· ≠ ']')).length_le
        rw [he] at hl
        cases hi : arrayIndex (Text.trimChars ((c :: rest).takeWhile (· ≠ ']'))) with
        | error e => rw [hi] at h; cases h
        | ok s =>
          rw [hi] at h
          cases h
          simp only [List.length_cons] at hl ⊢
          omega

/-! ## Paths -/

/-- The steps that a text says behind the root. -/
def parseSteps (position : Nat) : List Char → Except Defect (List Step)
  | [] => .ok []
  | c :: rest =>
    if c = '.' then
      match h : unquotedName (position + 1) rest with
      | .error d => .error d
      | .ok p =>
        have := unquotedName_length h
        if p.content = [] then .error (.emptyName (position + 1))
        else do
          let steps ← parseSteps p.position p.rest
          return .field (String.ofList p.content) :: steps
    else if c = '[' then
      match h : indexer (position + 1) rest with
      | .error d => .error d
      | .ok p =>
        have := indexer_length h
        do
          let steps ← parseSteps p.position p.rest
          return p.content :: steps
    else .error (.unexpected c position)
termination_by cs => cs.length
decreasing_by all_goals simp only [List.length_cons]; omega

/-- The steps of a whole path. -/
def parseChars : List Char → Except Defect (List Step)
  | [] => .error .empty
  | c :: rest =>
    if c ≠ '$' then .error .noRoot
    else if hasScan (c :: rest) then .error .scan
    else parseSteps 1 rest

/-- Reads a reference path. -/
def parse (text : String) : Except Defect Path := do
  return ⟨text, ← parseChars text.toList⟩

/-- Whether a text is a reference path. -/
def isPath (text : String) : Bool :=
  match parse text with
  | .ok _ => true
  | .error _ => false

/-- The node that a text identifies. A text that is no reference path identifies none. -/
def selectText (document : Json) (text : String) : Option Json :=
  match parse text with
  | .ok p => p.select document
  | .error _ => none

/-!
## Lenient paths

Some fields take paths that may identify several nodes. Of these only the brackets, the quotes and
the escapes are checked.
-/

/-- Whether a text closes what it opens, inside so many open brackets or parentheses and inside the
given quote, if any. A backslash takes the next character out of the count. The count is a 32-bit
integer and wraps around. -/
def isBalanced (depth : Int32) (quote : Option Char) : List Char → Bool
  | [] => depth == 0 && quote.isNone
  | ['\\'] => false
  | '\\' :: _ :: rest => isBalanced depth quote rest
  | c :: rest =>
    match quote with
    | some q => isBalanced depth (if c = q then none else some q) rest
    | none =>
      if c = '\'' ∨ c = '"' then isBalanced depth (some c) rest
      else if c = '[' ∨ c = '(' then isBalanced (depth + 1) none rest
      else if c = ']' ∨ c = ')' then
        if depth - 1 < 0 then false else isBalanced (depth - 1) none rest
      else isBalanced depth none rest

/-- Whether a text passes as a path: a reference path, or any balanced text that starts with `$`. -/
def isLenient (text : String) : Bool :=
  text.toList.head? == some '$' && (isPath text || isBalanced 0 none text.toList)

end StatesLang.Path
