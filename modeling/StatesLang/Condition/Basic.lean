import StatesLang.Json.Basic
import StatesLang.Timestamp

/-!
# Conditions

* `Condition.Operator`, `Condition.Kind`: how values are compared, and as values of what kind.
* `Condition.Literal`: a value of one of the kinds; `Condition.Literal.ofJson?`: a document as one.
* `Condition.TypeTest`: the classes that a value can be tested for.
* `Condition`: comparisons and tests of the values at paths, joined by `And`, `Or` and `Not`.
-/

namespace StatesLang

namespace Condition

/-- A comparison. A wildcard comparison takes its right side as a pattern. -/
inductive Operator
  | eq
  | gt
  | gte
  | lt
  | lte
  | wildcard
deriving DecidableEq

/-- The kind of the values that are compared. -/
inductive Kind
  | string
  | numeric
  | boolean
  | timestamp
deriving DecidableEq

/-- A value of one of the kinds. -/
inductive Literal
  | string (s : String)
  | numeric (n : Json.Number)
  | boolean (b : Bool)
  | timestamp (t : Timestamp)
deriving DecidableEq

/-- A class of values. -/
inductive TypeTest
  | isNull
  | isPresent
  | isNumeric
  | isString
  | isBoolean
  | isTimestamp
deriving DecidableEq

/-- The kind of a literal. -/
def Literal.kind : Literal → Kind
  | .string _ => .string
  | .numeric _ => .numeric
  | .boolean _ => .boolean
  | .timestamp _ => .timestamp

/-- A document as a literal of a kind, if it is one. -/
def Literal.ofJson? : Kind → Json → Option Literal
  | .string, .string s => some (.string s)
  | .numeric, .number n => some (.numeric n)
  | .boolean, .bool b => some (.boolean b)
  | .timestamp, .string s => (Timestamp.parse? s).map .timestamp
  | _, _ => none

theorem Literal.kind_ofJson {kind : Kind} {j : Json} {l : Literal} (h : ofJson? kind j = some l) :
    l.kind = kind := by
  unfold ofJson? at h
  split at h
  · cases h; rfl
  · cases h; rfl
  · cases h; rfl
  · obtain ⟨_, -, rfl⟩ := Option.map_eq_some_iff.1 h
    rfl
  · cases h

end Condition

/-- A predicate on documents. An empty path stands for the whole document. -/
inductive Condition
  /-- Compares the value at a path with a literal. -/
  | compare (path : String) (op : Condition.Operator) (expected : Condition.Literal)
  /-- Compares the values at two paths. -/
  | comparePath (path : String) (op : Condition.Operator) (kind : Condition.Kind)
      (expectedPath : String)
  /-- Tests the value at a path; the test must come out as expected. -/
  | test (path : String) (test : Condition.TypeTest) (expected : Bool)
  | and (children : List Condition)
  | or (children : List Condition)
  | not (child : Condition)

namespace Condition

instance : Inhabited Condition := ⟨.and []⟩

/-- The path that a comparison or a test reads first. -/
def path? : Condition → Option String
  | .compare path _ _ | .comparePath path _ _ _ | .test path _ _ => some path
  | .and _ | .or _ | .not _ => none

/-! ## Equality -/

mutual

/-- Decides whether two conditions are the same. -/
protected def decEq : (a b : Condition) → Decidable (a = b)
  | .compare p o e, .compare p' o' e' =>
    if h : p = p' ∧ o = o' ∧ e = e' then isTrue (by rw [h.1, h.2.1, h.2.2])
    else isFalse (by simpa using h)
  | .comparePath p o k e, .comparePath p' o' k' e' =>
    if h : p = p' ∧ o = o' ∧ k = k' ∧ e = e' then isTrue (by rw [h.1, h.2.1, h.2.2.1, h.2.2.2])
    else isFalse (by simpa using h)
  | .test p t e, .test p' t' e' =>
    if h : p = p' ∧ t = t' ∧ e = e' then isTrue (by rw [h.1, h.2.1, h.2.2])
    else isFalse (by simpa using h)
  | .and cs, .and ds =>
    match Condition.decEqList cs ds with
    | isTrue h => isTrue (by rw [h])
    | isFalse h => isFalse (by simp [h])
  | .or cs, .or ds =>
    match Condition.decEqList cs ds with
    | isTrue h => isTrue (by rw [h])
    | isFalse h => isFalse (by simp [h])
  | .not c, .not d =>
    match Condition.decEq c d with
    | isTrue h => isTrue (by rw [h])
    | isFalse h => isFalse (by simp [h])
  | .compare .., .comparePath .. | .compare .., .test .. | .compare .., .and _
  | .compare .., .or _ | .compare .., .not _ | .comparePath .., .compare ..
  | .comparePath .., .test .. | .comparePath .., .and _ | .comparePath .., .or _
  | .comparePath .., .not _ | .test .., .compare .. | .test .., .comparePath ..
  | .test .., .and _ | .test .., .or _ | .test .., .not _ | .and _, .compare ..
  | .and _, .comparePath .. | .and _, .test .. | .and _, .or _ | .and _, .not _
  | .or _, .compare .. | .or _, .comparePath .. | .or _, .test .. | .or _, .and _
  | .or _, .not _ | .not _, .compare .. | .not _, .comparePath .. | .not _, .test ..
  | .not _, .and _ | .not _, .or _ => isFalse (by simp)

/-- The same for two lists of conditions. -/
protected def decEqList : (a b : List Condition) → Decidable (a = b)
  | [], [] => isTrue rfl
  | a :: as, b :: bs =>
    match Condition.decEq a b, Condition.decEqList as bs with
    | isTrue h, isTrue h' => isTrue (by rw [h, h'])
    | isFalse h, _ => isFalse (by simp [h])
    | _, isFalse h => isFalse (by simp [h])
  | [], _ :: _ | _ :: _, [] => isFalse (by simp)

end

instance : DecidableEq Condition := Condition.decEq

end Condition

end StatesLang
