import StatesLang.Number.Notation

/-!
# JSON documents

* `Json.Number`: an integer of 64 bits, signed or unsigned, or a finite double.
* `Json`: documents; the members of an object keep their order of insertion.
* `Json.lookup`, `Json.insert`: reading and writing one member of an object.
* `Json.Number.compare`: integers compare exactly among themselves as long as both fit one of the
  two 64-bit ranges, all else as doubles.
-/

namespace StatesLang

/-- The integers that a JSON number keeps as they are: those of 64 bits, signed or unsigned. -/
abbrev WideInt := { n : Int // -0x8000000000000000 ≤ n ∧ n < 0x10000000000000000 }

/-- A JSON number. -/
inductive Json.Number
  | int (n : WideInt)
  | real (x : Binary64)
deriving DecidableEq

/-- A JSON document. -/
inductive Json
  | null
  | bool (b : Bool)
  | number (n : Json.Number)
  | string (s : String)
  | array (items : List Json)
  | object (members : List (String × Json))

namespace Json

instance : Inhabited Json := ⟨.null⟩

/-! ## Numbers -/

namespace Number

/-- An integer as a number; beyond 64 bits it is rounded to a double. -/
def ofInt (n : Int) : Number :=
  if h : -0x8000000000000000 ≤ n ∧ n < 0x10000000000000000 then .int ⟨n, h⟩
  else .real (Binary64.ofInt n)

/-- The number as a signed integer of 64 bits. -/
def int64? : Number → Option Int
  | .int n => if n.1 < 0x8000000000000000 then some n.1 else none
  | .real _ => none

/-- The number as an unsigned integer of 64 bits. -/
def uint64? : Number → Option Nat
  | .int n => if 0 ≤ n.1 then some n.1.toNat else none
  | .real _ => none

/-- The double nearest to the number. -/
def toBinary64 : Number → Binary64
  | .int n => Binary64.ofInt n.1
  | .real x => x

/-- The order of two numbers: of integers if both are signed or both are unsigned 64-bit integers,
of doubles otherwise. -/
def compare (x y : Number) : Ordering :=
  match x.int64?, y.int64? with
  | some a, some b => Ord.compare a b
  | _, _ =>
    match x.uint64?, y.uint64? with
    | some a, some b => Ord.compare a b
    | _, _ => x.toBinary64.compare y.toBinary64

/-- The text of a number. -/
def render : Number → String
  | .int n => toString n.1
  | .real x => x.render .document

end Number

/-! ## Members of an object -/

/-- The value of the first member with a key. -/
def lookup (key : String) : List (String × Json) → Option Json
  | [] => none
  | (k, v) :: rest => if k = key then some v else lookup key rest

theorem sizeOf_of_lookup {key : String} {members : List (String × Json)} {value : Json}
    (h : lookup key members = some value) : sizeOf value < sizeOf members := by
  induction members with
  | nil => cases h
  | cons m rest ih =>
    obtain ⟨k, v⟩ := m
    by_cases hk : k = key
    · simp only [lookup, hk, if_true, Option.some.injEq] at h
      subst h
      simp
      omega
    · simp only [lookup, hk, if_false] at h
      have := ih h
      simp
      omega

/-- Sets a member: in its place if the key is there already, else at the end. -/
def insert (key : String) (value : Json) : List (String × Json) → List (String × Json)
  | [] => [(key, value)]
  | (k, v) :: rest =>
    if k = key then (k, value) :: rest else (k, v) :: insert key value rest

/-- The member of a document with a key, if the document is an object that has one. -/
def member? (key : String) : Json → Option Json
  | .object ms => lookup key ms
  | _ => none

/-- The text, if the document is one. -/
def string? : Json → Option String
  | .string s => some s
  | _ => none

/-- The truth value, if the document is one. -/
def bool? : Json → Option Bool
  | .bool b => some b
  | _ => none

/-! ## Equality -/

mutual

/-- Decides whether two documents are the same, member order included. -/
protected def decEq : (a b : Json) → Decidable (a = b)
  | .null, .null => isTrue rfl
  | .bool a, .bool b => if h : a = b then isTrue (by rw [h]) else isFalse (by simp [h])
  | .number a, .number b => if h : a = b then isTrue (by rw [h]) else isFalse (by simp [h])
  | .string a, .string b => if h : a = b then isTrue (by rw [h]) else isFalse (by simp [h])
  | .array a, .array b =>
    match Json.decEqItems a b with
    | isTrue h => isTrue (by rw [h])
    | isFalse h => isFalse (by simp [h])
  | .object a, .object b =>
    match Json.decEqMembers a b with
    | isTrue h => isTrue (by rw [h])
    | isFalse h => isFalse (by simp [h])
  | .null, .bool _ | .null, .number _ | .null, .string _ | .null, .array _ | .null, .object _
  | .bool _, .null | .bool _, .number _ | .bool _, .string _ | .bool _, .array _
  | .bool _, .object _ | .number _, .null | .number _, .bool _ | .number _, .string _
  | .number _, .array _ | .number _, .object _ | .string _, .null | .string _, .bool _
  | .string _, .number _ | .string _, .array _ | .string _, .object _ | .array _, .null
  | .array _, .bool _ | .array _, .number _ | .array _, .string _ | .array _, .object _
  | .object _, .null | .object _, .bool _ | .object _, .number _ | .object _, .string _
  | .object _, .array _ => isFalse (by simp)

/-- The same for the items of two arrays. -/
protected def decEqItems : (a b : List Json) → Decidable (a = b)
  | [], [] => isTrue rfl
  | a :: as, b :: bs =>
    match Json.decEq a b, Json.decEqItems as bs with
    | isTrue h, isTrue h' => isTrue (by rw [h, h'])
    | isFalse h, _ => isFalse (by simp [h])
    | _, isFalse h => isFalse (by simp [h])
  | [], _ :: _ | _ :: _, [] => isFalse (by simp)

/-- The same for the members of two objects. -/
protected def decEqMembers : (a b : List (String × Json)) → Decidable (a = b)
  | [], [] => isTrue rfl
  | (k, a) :: as, (l, b) :: bs =>
    match String.decEq k l, Json.decEq a b, Json.decEqMembers as bs with
    | isTrue h, isTrue h', isTrue h'' => isTrue (by rw [h, h', h''])
    | isFalse h, _, _ => isFalse (by simp [h])
    | _, isFalse h, _ => isFalse (by simp [h])
    | _, _, isFalse h => isFalse (by simp [h])
  | [], _ :: _ | _ :: _, [] => isFalse (by simp)

end

instance : DecidableEq Json := Json.decEq

end Json

end StatesLang
