import StatesLang.Json.Basic

/-!
# What a JSON text says, as far as it can be read

A text always has an outline. Where it breaks off, or where a token has no value, the outline holds
a fault; what stands before is known all the same, so that a reader that refuses an earlier part
reports that part first.

* `SyntaxError`: what can be wrong with a text, and its wording.
* `Json.Fault`: what a reader reports that wants the value, and one that skips it.
* `Json.Syntax`, `Json.Items`, `Json.Members`: outlines of values, arrays and objects.
* `Json.Syntax.check`: the first fault in reading order, nesting limit included.
* `Json.Syntax.skip`: the first fault that even skipping meets.
* `Json.Syntax.toJson`: the document of an outline without faults.
-/

namespace StatesLang

/-- What can be wrong with a JSON text. -/
inductive SyntaxError
  | endInList
  | endInObject
  | endInString
  | endInValue
  | expectedColon
  | expectedListCommaOrEnd
  | expectedObjectCommaOrEnd
  | expectedWord
  | expectedValue
  | invalidEscape
  | invalidNumber
  | numberOutOfRange
  | controlCharacter
  | keyMustBeString
  | loneSurrogate
  | trailingComma
  | trailingCharacters
  | unfinishedSurrogate
  | recursionLimit
deriving DecidableEq

/-- The wording of a syntax error. -/
def SyntaxError.message : SyntaxError → String
  | .endInList => "EOF while parsing a list"
  | .endInObject => "EOF while parsing an object"
  | .endInString => "EOF while parsing a string"
  | .endInValue => "EOF while parsing a value"
  | .expectedColon => "expected `:`"
  | .expectedListCommaOrEnd => "expected `,` or `]`"
  | .expectedObjectCommaOrEnd => "expected `,` or `\x7d`"
  | .expectedWord => "expected ident"
  | .expectedValue => "expected value"
  | .invalidEscape => "invalid escape"
  | .invalidNumber => "invalid number"
  | .numberOutOfRange => "number out of range"
  | .controlCharacter => "control character (\\u0000-\\u001F) found while parsing a string"
  | .keyMustBeString => "key must be a string"
  | .loneSurrogate => "lone leading surrogate in hex escape"
  | .trailingComma => "trailing comma"
  | .trailingCharacters => "trailing characters"
  | .unfinishedSurrogate => "unexpected end of hex escape"
  | .recursionLimit => "recursion limit exceeded"

namespace Json

/-- A fault of a text: what is reported where the value is wanted, and what where it is skipped. A
token that is complete but has no value is no fault for skipping. -/
structure Fault where
  wanted : SyntaxError
  skipped : Option SyntaxError
deriving DecidableEq

/-- A fault that ends all reading, reported alike by every reader. -/
def Fault.hard (e : SyntaxError) : Fault := ⟨e, some e⟩

/-- A token that is complete but has no value. -/
def Fault.soft (e : SyntaxError) : Fault := ⟨e, none⟩

/-- The key of a member, or why it is no text. -/
inductive Key
  | name (s : String)
  | fault (f : Fault)
deriving DecidableEq

mutual

/-- The outline of a value. -/
inductive Syntax
  | null
  | bool (b : Bool)
  | number (n : Number)
  | string (s : String)
  | array (items : Items)
  | object (members : Members)
  | fault (f : Fault)

/-- The items of an array, up to its end or to a fault between them. -/
inductive Items
  | done
  | fault (f : Fault)
  | more (item : Syntax) (rest : Items)

/-- The members of an object, up to its end or to a fault between them. -/
inductive Members
  | done
  | fault (f : Fault)
  | more (key : Key) (value : Syntax) (rest : Members)

end

/-- The nesting that a text may have, plus one. -/
def nestingLimit : Nat := 128

/-- The number of items. -/
def Items.length : Items → Nat
  | .done | .fault _ => 0
  | .more _ rest => rest.length + 1

/-! ## Faults in reading order -/

/-- A key as a text. -/
def Key.name? : Key → Except SyntaxError String
  | .name s => .ok s
  | .fault f => .error f.wanted

/-- What skipping a key reports. -/
def Fault.skip (f : Fault) : Except SyntaxError Unit :=
  match f.skipped with
  | some e => .error e
  | none => .ok ()

mutual

/-- The first fault of a value that is read with room for so many more levels. -/
def Syntax.check (room : Nat) : Syntax → Except SyntaxError Unit
  | .null | .bool _ | .number _ | .string _ => .ok ()
  | .array items => if room ≤ 1 then .error .recursionLimit else items.check (room - 1)
  | .object members => if room ≤ 1 then .error .recursionLimit else members.check (room - 1)
  | .fault f => .error f.wanted

/-- The first fault of the items of an array. -/
def Items.check (room : Nat) : Items → Except SyntaxError Unit
  | .done => .ok ()
  | .fault f => .error f.wanted
  | .more item rest => do item.check room; rest.check room

/-- The first fault of the members of an object. -/
def Members.check (room : Nat) : Members → Except SyntaxError Unit
  | .done => .ok ()
  | .fault f => .error f.wanted
  | .more key value rest => do let _ ← key.name?; value.check room; rest.check room

end

mutual

/-- The first fault that skipping a value meets. -/
def Syntax.skip : Syntax → Except SyntaxError Unit
  | .null | .bool _ | .number _ | .string _ => .ok ()
  | .array items => items.skip
  | .object members => members.skip
  | .fault f => f.skip

/-- The first fault that skipping items meets. -/
def Items.skip : Items → Except SyntaxError Unit
  | .done => .ok ()
  | .fault f => f.skip
  | .more item rest => do item.skip; rest.skip

/-- The first fault that skipping members meets. -/
def Members.skip : Members → Except SyntaxError Unit
  | .done => .ok ()
  | .fault f => f.skip
  | .more key value rest => do
    match key with
    | .name _ => pure ()
    | .fault f => f.skip
    value.skip
    rest.skip

end

/-! ## Documents -/

mutual

/-- The document of an outline. A key that comes again replaces the value and keeps the place. -/
def Syntax.toJson : Syntax → Json
  | .null | .fault _ => .null
  | .bool b => .bool b
  | .number n => .number n
  | .string s => .string s
  | .array items => .array items.toList
  | .object members => .object (members.toList [])

/-- The items of an array. -/
def Items.toList : Items → List Json
  | .done | .fault _ => []
  | .more item rest => item.toJson :: rest.toList

/-- The members of an object, put into those before them. -/
def Members.toList (before : List (String × Json)) : Members → List (String × Json)
  | .done | .fault _ => before
  | .more (.name key) value rest => rest.toList (Json.insert key value.toJson before)
  | .more (.fault _) _ rest => rest.toList before

end

mutual

/-- The outline of a document. -/
def Syntax.ofJson : Json → Syntax
  | .null => .null
  | .bool b => .bool b
  | .number n => .number n
  | .string s => .string s
  | .array items => .array (Items.ofList items)
  | .object members => .object (Members.ofList members)

/-- The outline of the items of an array. -/
def Items.ofList : List Json → Items
  | [] => .done
  | item :: rest => .more (Syntax.ofJson item) (Items.ofList rest)

/-- The outline of the members of an object. -/
def Members.ofList : List (String × Json) → Members
  | [] => .done
  | (key, value) :: rest => .more (.name key) (Syntax.ofJson value) (Members.ofList rest)

end

end Json

end StatesLang
