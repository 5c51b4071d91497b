import StatesLang.Json.Basic

/-!
# Comparing and merging documents

* `Json.sameValue`: equality by value: numbers by their order, objects whatever the order of their
  members.
* `Json.merge`: the members of two objects; the right one wins.
-/

namespace StatesLang.Json

mutual

/-- Whether two documents have the same value. -/
def sameValue : Json → Json → Bool
  | .null, .null => true
  | .bool a, .bool b => a == b
  | .number a, .number b => a.compare b == .eq
  | .string a, .string b => a == b
  | .array as, .array bs => sameItems as bs
  | .object as, .object bs => as.length == bs.length && sameMembers as bs
  | _, _ => false

/-- Whether two lists of items have the same values. -/
def sameItems : List Json → List Json → Bool
  | [], [] => true
  | a :: as, b :: bs => sameValue a b && sameItems as bs
  | _, _ => false

/-- Whether an object has all of some members, with the same values. -/
def sameMembers : List (String × Json) → List (String × Json) → Bool
  | [], _ => true
  | (key, a) :: as, bs =>
    (match lookup key bs with
      | some b => sameValue a b
      | none => false) &&
      sameMembers as bs

end

mutual

/-- The members of an object with those of another one put in. In deep mode a member that both hold
as an object is merged in turn. -/
def merge (deep : Bool) (left : List (String × Json)) :
    List (String × Json) → List (String × Json)
  | [] => left
  | (key, value) :: rest =>
    merge deep (insert key (mergeValue deep (lookup key left) value) left) rest

/-- The value of a member that comes in, beside the one that is there. -/
def mergeValue (deep : Bool) (old : Option Json) : Json → Json
  | .object incoming =>
    match deep, old with
    | true, some (.object existing) => .object (merge deep existing incoming)
    | _, _ => .object incoming
  | value => value

end

/-- The first items of a list with each value. -/
def distinct (items : List Json) : List Json :=
  items.foldl (fun seen item => if seen.any (sameValue · item) then seen else seen ++ [item]) []

end StatesLang.Json
