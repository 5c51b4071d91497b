import StatesLang.Condition.Eval

/-!
# Conditions as documents

The operator of a comparison is part of its key, as in `NumericLessThanPath`.

* `Condition.Comparison`: what a comparison key says; `Comparison.key` and `Comparison.ofKey?`.
* `Condition.toJson`: the document of a condition.
* `Condition.Defect`: why a document is no condition, and its wording.
* `Condition.ofJson`: the condition of a document.
-/

namespace StatesLang

namespace Condition

/-! ## Keys -/

/-- The name of a kind. -/
def Kind.name : Kind → String
  | .string => "String"
  | .numeric => "Numeric"
  | .boolean => "Boolean"
  | .timestamp => "Timestamp"

/-- All kinds, in the order of declaration. -/
def Kind.all : List Kind :=
  [.string, .numeric, .boolean, .timestamp]

/-- A kind as messages call it. -/
def Kind.label : Kind → String
  | .string => "string"
  | .numeric => "numeric"
  | .boolean => "boolean"
  | .timestamp => "timestamp"

/-- The name of an operator. -/
def Operator.name : Operator → String
  | .eq => "Equals"
  | .gt => "GreaterThan"
  | .gte => "GreaterThanEquals"
  | .lt => "LessThan"
  | .lte => "LessThanEquals"
  | .wildcard => "Matches"

/-- All operators. -/
def Operator.all : List Operator :=
  [.eq, .gt, .gte, .lt, .lte, .wildcard]

/-- The operator with a name. -/
def Operator.ofName? (name : String) : Option Operator :=
  Operator.all.find? (·.name == name)

/-- The key of a test. -/
def TypeTest.key : TypeTest → String
  | .isNull => "IsNull"
  | .isPresent => "IsPresent"
  | .isNumeric => "IsNumeric"
  | .isString => "IsString"
  | .isBoolean => "IsBoolean"
  | .isTimestamp => "IsTimestamp"

/-- All tests. -/
def TypeTest.all : List TypeTest :=
  [.isNull, .isPresent, .isNumeric, .isString, .isBoolean, .isTimestamp]

/-- The test with a key. -/
def TypeTest.ofKey? (key : String) : Option TypeTest :=
  TypeTest.all.find? (·.key == key)

/-- What the key of a comparison says: the kind, the operator and whether the right side is a
path. -/
structure Comparison where
  kind : Kind
  op : Operator
  toPath : Bool
deriving DecidableEq

/-- The key of a comparison. -/
def Comparison.key (c : Comparison) : String :=
  c.kind.name ++ c.op.name ++ (if c.toPath then "Path" else "")

/-- Whether documents may hold a comparison: a pattern is a literal text, and truth values can only
be tested for equality. -/
def Comparison.isLegal (c : Comparison) : Bool :=
  match c.kind, c.op with
  | .string, .wildcard => !c.toPath
  | _, .wildcard => false
  | .boolean, op => op == .eq
  | _, _ => true

/-- The comparison that a key says without the ending for paths: the name of a kind, then that of an
operator. -/
def Comparison.ofBody? (toPath : Bool) (body : List Char) : Option Comparison :=
  Kind.all.findSome? fun kind => do
    let name ← kind.name.toList.isPrefixOf? body
    let op ← Operator.ofName? (String.ofList name)
    if isLegal ⟨kind, op, toPath⟩ then some ⟨kind, op, toPath⟩ else none

/-- The comparison with a key. -/
def Comparison.ofKey? (key : String) : Option Comparison :=
  match "Path".toList.isSuffixOf? key.toList with
  | some body => ofBody? true body
  | none => ofBody? false key.toList

/-! ## Writing -/

/-- A literal as a value. -/
def Literal.toJson : Literal → Json
  | .string s => .string s
  | .numeric n => .number n
  | .boolean b => .bool b
  | .timestamp t => .string t.render

/-- The members of a comparison or a test. An empty path is left out. -/
def withVariable (path key : String) (operand : Json) : Json :=
  .object ((if path = "" then [] else [("Variable", .string path)]) ++ [(key, operand)])

mutual

/-- The document of a condition. -/
def toJson : Condition → Json
  | .compare path op expected =>
    withVariable path (Comparison.key ⟨expected.kind, op, false⟩) expected.toJson
  | .comparePath path op kind expectedPath =>
    withVariable path (Comparison.key ⟨kind, op, true⟩) (.string expectedPath)
  | .test path t expected => withVariable path t.key (.bool expected)
  | .and children => .object [("And", .array (toJsonList children))]
  | .or children => .object [("Or", .array (toJsonList children))]
  | .not child => .object [("Not", toJson child)]

/-- The documents of conditions. -/
def toJsonList : List Condition → List Json
  | [] => []
  | c :: cs => toJson c :: toJsonList cs

end

/-! ## Reading -/

/-- Why a document is no condition. -/
inductive Defect
  | notObject
  | variableNotString
  | noOperator
  | severalOperators (first second : String)
  | notBoolean (key : String)
  | notPath (key : String)
  | notConditions (key : String)
  | unknownOperator (key : String)
  | wrongOperand (key : String) (kind : Kind)
  | notTimestamp (text : String)
deriving DecidableEq

/-- The wording of a defect. -/
def Defect.message : Defect → String
  | .notObject => "condition must be a JSON object"
  | .variableNotString => "'Variable' must be a string"
  | .noOperator => "condition has no comparison operator"
  | .severalOperators a b =>
    s!"condition has more than one comparison operator ('{a}' and '{b}')"
  | .notBoolean key => s!"'{key}' must be a boolean"
  | .notPath key => s!"'{key}' must be a path string"
  | .notConditions key => s!"'{key}' must be an array of conditions"
  | .unknownOperator key => s!"unknown comparison operator '{key}'"
  | .wrongOperand key kind =>
    let label := kind.label
    s!"'{key}' expects a {label} operand"
  | .notTimestamp text => s!"'{text}' is not an RFC 3339 timestamp"

/-- The path of a comparison or a test, empty if there is none. -/
def variableOf (members : List (String × Json)) : Except Defect String :=
  match Json.lookup "Variable" members with
  | none => .ok ""
  | some (.string path) => .ok path
  | some _ => .error .variableNotString

/-- Whether a key says something about a condition other than its operator. -/
def isRemark (key : String) : Bool :=
  key == "Variable" || key == "Comment" || key == "Next"

/-- The only operator of a comparison or a test, with its operand. -/
def operatorOf (members : List (String × Json)) : Except Defect (String × Json) :=
  match members.filter fun m => !isRemark m.1 with
  | [] => .error .noOperator
  | [m] => .ok m
  | a :: b :: _ => .error (.severalOperators a.1 b.1)

/-- The literal that a comparison with a key compares with. -/
def literalOf (key : String) (kind : Kind) (operand : Json) : Except Defect Literal :=
  match Literal.ofJson? kind operand with
  | some l => .ok l
  | none =>
    match kind, operand with
    | .timestamp, .string s => .error (.notTimestamp s)
    | _, _ => .error (.wrongOperand key kind)

/-- A comparison or a test. -/
def leafOf (members : List (String × Json)) : Except Defect Condition := do
  let path ← variableOf members
  let (key, operand) ← operatorOf members
  match TypeTest.ofKey? key with
  | some t =>
    match operand with
    | .bool expected => .ok (.test path t expected)
    | _ => .error (.notBoolean key)
  | none =>
    match Comparison.ofKey? key with
    | none => .error (.unknownOperator key)
    | some ⟨kind, op, true⟩ =>
      match operand with
      | .string expectedPath => .ok (.comparePath path op kind expectedPath)
      | _ => .error (.notPath key)
    | some ⟨kind, op, false⟩ => do
      return .compare path op (← literalOf key kind operand)

mutual

/-- The condition of a document. `And`, `Or` and `Not`, in this order, go before all other keys. -/
def ofJson : Json → Except Defect Condition
  | .object members =>
    match ha : Json.lookup "And" members with
    | some (.array items) =>
      have := Json.sizeOf_of_lookup ha
      (ofJsonList items).map .and
    | some _ => .error (.notConditions "And")
    | none =>
      match ho : Json.lookup "Or" members with
      | some (.array items) =>
        have := Json.sizeOf_of_lookup ho
        (ofJsonList items).map .or
      | some _ => .error (.notConditions "Or")
      | none =>
        match hn : Json.lookup "Not" members with
        | some child =>
          have := Json.sizeOf_of_lookup hn
          (ofJson child).map .not
        | none => leafOf members
  | _ => .error .notObject
termination_by j => sizeOf j
decreasing_by all_goals simp_all; omega

/-- The conditions of documents. -/
def ofJsonList : List Json → Except Defect (List Condition)
  | [] => .ok []
  | item :: rest => do
    let c ← ofJson item
    let cs ← ofJsonList rest
    return c :: cs
termination_by items => sizeOf items

end

end Condition

end StatesLang
