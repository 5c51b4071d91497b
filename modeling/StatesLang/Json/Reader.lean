import StatesLang.Json.Syntax
import StatesLang.Number.Binary64
import StatesLang.Number.Literal

/-!
# Reading JSON texts

* `Json.Token`: what the text says at the place of a word, number or string.
* `Json.scanString`, `Json.scanNumber`: strings and numbers.
* `Json.readValue`: the outline of a value, and the text behind it unless a fault ended the reading.
* `Json.Text.read`: the outline of a whole text; `Json.parse?`: its document.
-/

namespace StatesLang.Json

/-- A scanned token: its value, a token without a value, or the end of all reading. -/
inductive Token (α : Type)
  | value (a : α) (rest : List Char)
  | unfit (e : SyntaxError) (rest : List Char)
  | broken (f : Fault)

/-- Drops the blanks of JSON: space, tab, line feed and carriage return. -/
def skipBlanks (cs : List Char) : List Char :=
  cs.dropWhile fun c => c = ' ' ∨ c = '\n' ∨ c = '\t' ∨ c = '\r'

/-! ## Words -/

/-- Checks that the text goes on with the rest of a word. -/
def scanWord : List Char → List Char → Token Unit
  | [], cs => .value () cs
  | _ :: _, [] => .broken (.hard .endInValue)
  | w :: ws, c :: cs => if c = w then scanWord ws cs else .broken (.hard .expectedWord)

/-! ## Strings -/

/-- The value of a hexadecimal digit. -/
def hexValue? (c : Char) : Option Nat :=
  if '0' ≤ c ∧ c ≤ '9' then some (c.toNat - '0'.toNat)
  else if 'a' ≤ c ∧ c ≤ 'f' then some (c.toNat - 'a'.toNat + 10)
  else if 'A' ≤ c ∧ c ≤ 'F' then some (c.toNat - 'A'.toNat + 10)
  else none

/-- The value of four hexadecimal digits. -/
def hexFour? (a b c d : Char) : Option Nat := do
  let a ← hexValue? a
  let b ← hexValue? b
  let c ← hexValue? c
  let d ← hexValue? d
  return ((a * 16 + b) * 16 + c) * 16 + d

/-- The character that an escape with one letter stands for. -/
def simpleEscape? (c : Char) : Option Char :=
  if c = '"' ∨ c = '\\' ∨ c = '/' then some c
  else if c = 'b' then some '\x08'
  else if c = 'f' then some '\x0c'
  else if c = 'n' then some '\n'
  else if c = 'r' then some '\r'
  else if c = 't' then some '\t'
  else none

/-- The error of an escape `\u` without four hexadecimal digits: the text may be too short for
them, counted in bytes. -/
def shortEscape (cs : List Char) : SyntaxError :=
  if 4 ≤ (cs.take 4).foldl (fun n c => n + c.utf8Size) 0 then .invalidEscape else .endInString

/-- Whether a code unit is the first half of a surrogate pair. -/
def isLeading (n : Nat) : Bool := 0xd800 ≤ n && n < 0xdc00

/-- Whether a code unit is the second half of a surrogate pair. -/
def isTrailing (n : Nat) : Bool := 0xdc00 ≤ n && n < 0xe000

/-- The character of a surrogate pair. -/
def pairChar (lead trail : Nat) : Char :=
  Char.ofNat (0x10000 + (lead - 0xd800) * 0x400 + (trail - 0xdc00))

/-- Whether the text goes on with the beginning of an escape `\u`, or ends before it can. -/
def mayEscapeUnit : List Char → Bool
  | [] | ['\\'] => true
  | '\\' :: c :: _ => c = 'u'
  | _ :: _ => false

/-- The end of all reading inside a string, after an earlier flaw or none. -/
def brokenString (flaw : Option SyntaxError) (e : SyntaxError) : Token String :=
  .broken ⟨flaw.getD e, some e⟩

/-- Scans a string behind its opening quote. A lone surrogate leaves the string without a value, but
the scan goes on to its end. -/
def scanString (before : List Char) (flaw : Option SyntaxError) : List Char → Token String
  | [] => brokenString flaw .endInString
  | '"' :: rest =>
    match flaw with
    | none => .value (String.ofList before.reverse) rest
    | some e => .unfit e rest
  | '\\' :: 'u' :: a :: b :: c :: d :: rest =>
    match hexFour? a b c d with
    | none => brokenString flaw .invalidEscape
    | some n =>
      if isTrailing n then scanString before (flaw.or (some .loneSurrogate)) rest
      else if isLeading n then
        match rest with
        | '\\' :: 'u' :: a' :: b' :: c' :: d' :: rest' =>
          match hexFour? a' b' c' d' with
          | none => brokenString flaw .invalidEscape
          | some m =>
            if isTrailing m then scanString (pairChar n m :: before) flaw rest'
            else scanString before (flaw.or (some .loneSurrogate)) rest'
        | rest =>
          if mayEscapeUnit rest then scanString before flaw rest
          else scanString before (flaw.or (some .unfinishedSurrogate)) rest
      else scanString (Char.ofNat n :: before) flaw rest
  | '\\' :: 'u' :: rest => brokenString flaw (shortEscape rest)
  | ['\\'] => brokenString flaw .endInString
  | '\\' :: c :: rest =>
    match simpleEscape? c with
    | some e => scanString (e :: before) flaw rest
    | none => brokenString flaw .invalidEscape
  | c :: rest =>
    if c.toNat < 0x20 then brokenString flaw .controlCharacter
    else scanString (c :: before) flaw rest

/-! ## Numbers -/

/-- Appends digits to a significand while it stays below `2^64`. -/
def takeSignificand (n : Nat) : List Char → Nat × List Char
  | [] => (n, [])
  | d :: rest =>
    let m := 10 * n + Literal.digitValue d
    if d.isDigit ∧ m < 0x10000000000000000 then takeSignificand m rest else (n, d :: rest)

/-- Whether the text begins with a digit. -/
def startsWithDigit : List Char → Bool
  | [] => false
  | c :: _ => c.isDigit

/-- A digit was expected: the text ends, or another character stands there. Skipping does not tell
these apart. -/
def digitExpected (cs : List Char) : Fault :=
  ⟨if cs = [] then .endInValue else .invalidNumber, some .invalidNumber⟩

/-- The greatest exponent that a document may write. -/
def maxExponent : Nat := 0x7fffffff

/-- A number with a point or an exponent, given by its significand and its power of ten. -/
def scaledNumber (negative : Bool) (significand : Nat) (exponent : Int) (rest : List Char) :
    Token Number :=
  match (Binary64.ofInt significand).scaleTen exponent with
  | some x => .value (.real (if negative then x.neg else x)) rest
  | none => .unfit .numberOutOfRange rest

/-- The sign of an exponent, `true` for minus, and what follows it. -/
def exponentSign : List Char → Bool × List Char
  | '+' :: rest => (false, rest)
  | '-' :: rest => (true, rest)
  | rest => (false, rest)

/-- Scans the exponent behind its letter. -/
def scanExponent (negative : Bool) (significand : Nat) (exponent : Int) (cs : List Char) :
    Token Number :=
  let (below, ds) := exponentSign cs
  if startsWithDigit ds then
    let e := Literal.digitsValue (ds.takeWhile Char.isDigit)
    let rest := ds.dropWhile Char.isDigit
    if e ≤ maxExponent then
      scaledNumber negative significand (if below then exponent - e else exponent + e) rest
    else if significand ≠ 0 ∧ !below then .unfit .numberOutOfRange rest
    else .value (.real (.zero negative)) rest
  else .broken (digitExpected ds)

/-- Scans what may follow the digits before the exponent. -/
def scanTail (negative : Bool) (significand : Nat) (exponent : Int) : List Char → Token Number
  | c :: rest =>
    if c = 'e' ∨ c = 'E' then scanExponent negative significand exponent rest
    else scaledNumber negative significand exponent (c :: rest)
  | [] => scaledNumber negative significand exponent []

/-- Scans the digits behind the point. Those that the significand has no room for are dropped. -/
def scanFraction (negative : Bool) (significand : Nat) (exponent : Int) (cs : List Char) :
    Token Number :=
  if startsWithDigit cs then
    let (n, rest) := takeSignificand significand cs
    scanTail negative n (exponent - (cs.length - rest.length : Nat)) (rest.dropWhile Char.isDigit)
  else .broken (digitExpected cs)

/-- An integer; beyond 64 bits, and for minus zero, it is a double. -/
def wholeNumber (negative : Bool) (n : Nat) : Number :=
  if negative then if n = 0 then .real (.zero true) else .ofInt (-(n : Int)) else .ofInt n

/-- Scans what follows the digits before the point. -/
def scanAfterWhole (negative : Bool) (significand : Nat) (rest : List Char) : Token Number :=
  let dropped := rest.takeWhile Char.isDigit
  match rest.dropWhile Char.isDigit with
  | '.' :: rest => scanFraction negative significand dropped.length rest
  | rest =>
    match rest with
    | 'e' :: _ | 'E' :: _ => scanTail negative significand dropped.length rest
    | _ =>
      if dropped = [] then .value (wholeNumber negative significand) rest
      else scaledNumber negative significand dropped.length rest

/-- Scans a number behind its sign. -/
def scanNumber (negative : Bool) (cs : List Char) : Token Number :=
  match cs with
  | '0' :: rest =>
    if startsWithDigit rest then .broken (.hard .invalidNumber)
    else scanAfterWhole negative 0 rest
  | _ =>
    if startsWithDigit cs then
      let (n, rest) := takeSignificand 0 cs
      scanAfterWhole negative n rest
    else .broken (digitExpected cs)

/-! ## Values -/

/-- The outline of a token, and the text behind it. -/
def Token.outline {α : Type} (make : α → Syntax) : Token α → Syntax × Option (List Char)
  | .value a rest => (make a, some rest)
  | .unfit e rest => (.fault (.soft e), some rest)
  | .broken f => (.fault f, none)

/-- Reading ends with a fault in place of a value. -/
def stopped (e : SyntaxError) : Syntax × Option (List Char) :=
  (.fault (.hard e), none)

mutual

/-- The outline of a value, and the text behind it. The first argument bounds the characters left,
so it never runs out before the text does. -/
def readValue : Nat → List Char → Syntax × Option (List Char)
  | 0, _ => stopped .endInValue
  | fuel + 1, cs =>
    match skipBlanks cs with
    | [] => stopped .endInValue
    | '[' :: rest =>
      let (items, rest) := readItems fuel true rest
      (.array items, rest)
    | '\x7b' :: rest =>
      let (members, rest) := readMembers fuel true rest
      (.object members, rest)
    | '"' :: rest => (scanString [] none rest).outline .string
    | '-' :: rest => (scanNumber true rest).outline .number
    | 'n' :: rest => (scanWord ['u', 'l', 'l'] rest).outline fun _ => .null
    | 't' :: rest => (scanWord ['r', 'u', 'e'] rest).outline fun _ => .bool true
    | 'f' :: rest => (scanWord ['a', 'l', 's', 'e'] rest).outline fun _ => .bool false
    | c :: rest =>
      if c.isDigit then (scanNumber false (c :: rest)).outline .number
      else stopped .expectedValue

/-- The outline of the items of an array, from the first on or behind an earlier one. -/
def readItems : Nat → Bool → List Char → Items × Option (List Char)
  | 0, _, _ => (.fault (.hard .endInList), none)
  | fuel + 1, first, cs =>
    match skipBlanks cs with
    | [] => (.fault (.hard .endInList), none)
    | ']' :: rest => (.done, some rest)
    | c :: rest =>
      if first then readItem fuel (c :: rest)
      else if c = ',' then
        match skipBlanks rest with
        | [] => (.fault (.hard .endInValue), none)
        | ']' :: _ => (.fault ⟨.trailingComma, some .expectedValue⟩, none)
        | rest => readItem fuel rest
      else (.fault (.hard .expectedListCommaOrEnd), none)

/-- The outline of an item and of those behind it. -/
def readItem : Nat → List Char → Items × Option (List Char)
  | 0, _ => (.fault (.hard .endInList), none)
  | fuel + 1, cs =>
    match readValue fuel cs with
    | (item, none) => (.more item .done, none)
    | (item, some rest) =>
      let (items, rest) := readItems fuel false rest
      (.more item items, rest)

/-- The outline of the members of an object, from the first on or behind an earlier one. -/
def readMembers : Nat → Bool → List Char → Members × Option (List Char)
  | 0, _, _ => (.fault (.hard .endInObject), none)
  | fuel + 1, first, cs =>
    match skipBlanks cs with
    | [] => (.fault (.hard .endInObject), none)
    | '\x7d' :: rest => (.done, some rest)
    | c :: rest =>
      if first then
        if c = '"' then readMember fuel rest else (.fault (.hard .keyMustBeString), none)
      else if c = ',' then
        match skipBlanks rest with
        | [] => (.fault ⟨.endInValue, some .endInObject⟩, none)
        | '"' :: rest => readMember fuel rest
        | '\x7d' :: _ => (.fault ⟨.trailingComma, some .keyMustBeString⟩, none)
        | _ :: _ => (.fault (.hard .keyMustBeString), none)
      else (.fault (.hard .expectedObjectCommaOrEnd), none)

/-- The outline of a member behind the opening quote of its key, and of those behind it. -/
def readMember : Nat → List Char → Members × Option (List Char)
  | 0, _ => (.fault (.hard .endInObject), none)
  | fuel + 1, cs =>
    match scanString [] none cs with
    | .broken f => (.fault f, none)
    | .value key rest => readMemberValue fuel (.name key) rest
    | .unfit e rest => readMemberValue fuel (.fault (.soft e)) rest

/-- The outline of a member behind its key, and of those behind it. -/
def readMemberValue : Nat → Key → List Char → Members × Option (List Char)
  | 0, _, _ => (.fault (.hard .endInObject), none)
  | fuel + 1, key, cs =>
    match skipBlanks cs with
    | [] => (.more key (.fault (.hard .endInObject)) .done, none)
    | ':' :: rest =>
      match readValue fuel rest with
      | (value, none) => (.more key value .done, none)
      | (value, some rest) =>
        let (members, rest) := readMembers fuel false rest
        (.more key value members, rest)
    | _ :: _ => (.more key (.fault (.hard .expectedColon)) .done, none)

end

/-! ## Whole texts -/

/-- The outline of a text: its value, and whether more than blanks follows. -/
structure Text where
  root : Syntax
  trailing : Bool

/-- The outline of a text. A character is read in at most three steps. -/
def Text.read (s : String) : Text :=
  let cs := s.toList
  match readValue (3 * cs.length + 3) cs with
  | (root, none) => ⟨root, false⟩
  | (root, some rest) => ⟨root, skipBlanks rest ≠ []⟩

/-- The document of a text. -/
def parse? (s : String) : Except SyntaxError Json := do
  let text := Text.read s
  text.root.check nestingLimit
  if text.trailing then .error .trailingCharacters else .ok text.root.toJson

end StatesLang.Json
