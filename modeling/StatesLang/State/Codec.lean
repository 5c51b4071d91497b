import StatesLang.State.Fields

/-!
# States as documents

* `State.toJson`, `Graph.toJson`: the documents of states and graphs.
* `State.decode`, `Graph.decode`: states and graphs out of values of any origin. A state is an
  object with a member `Type`, or an array that starts with the type.
-/

namespace StatesLang

open Json (Syntax Items Members)
open Decode (Origin)

/-! ## Writing -/

mutual

/-- The document of a state. -/
def State.toJson : State → Json
  | .parallel p branches =>
    ({ State.record (.parallel p []) with branches := Graph.listToJson branches }).toJson .parallel
  | .map m none => (State.record (.map m none)).toJson .map
  | .map m (some iterator) =>
    ({ State.record (.map m none) with iterator := some (Graph.toJson iterator) }).toJson .map
  | .task t => (State.record (.task t)).toJson .task
  | .pass p => (State.record (.pass p)).toJson .pass
  | .choice c => (State.record (.choice c)).toJson .choice
  | .wait w => (State.record (.wait w)).toJson .wait
  | .succeed s => (State.record (.succeed s)).toJson .succeed
  | .fail f => (State.record (.fail f)).toJson .fail

/-- The document of a graph. -/
def Graph.toJson : Graph → Json
  | ⟨comment, startAt, states⟩ =>
    .ofMembers [("Comment", comment.map .string), ("StartAt", some (.string startAt)),
      ("States", some (.object (Graph.statesToJson states)))]

/-- The documents of graphs. -/
def Graph.listToJson : List Graph → List Json
  | [] => []
  | g :: gs => Graph.toJson g :: Graph.listToJson gs

/-- The documents of named states. -/
def Graph.statesToJson : List (String × State) → List (String × Json)
  | [] => []
  | (name, s) :: rest => (name, State.toJson s) :: Graph.statesToJson rest

end

/-! ## Types -/

/-- The type that a value names. One that was kept until now may be the number of a type. -/
def StateType.decode (origin : Origin) (v : Syntax) : Except Decode.Error StateType :=
  match origin, v with
  | _, .string name =>
    match StateType.ofName? name with
    | some type => .ok type
    | none => .error (.unknownVariant name (StateType.all.map StateType.name))
  | .kept, .number (.int n) =>
    if 0 ≤ n.1 then
      match StateType.all[n.1.toNat]? with
      | some type => .ok type
      | none => .error (.invalidValue (.integer n.1) (.variantIndex StateType.all.length))
    else .error (Decode.mismatch .variantName v)
  | _, v => .error (Decode.mismatch .variantName v)

/-- The type that the members of a state name. All other members are only kept. -/
def StateType.scan (origin : Origin) (found : Option StateType) :
    Members → Except Decode.Error StateType
  | .done =>
    match found with
    | some type => .ok type
    | none => .error (.missingField "Type")
  | .fault f => .error (.malformed f.wanted)
  | .more key value rest => do
    let name ← key.name?.mapError .malformed
    if name = "Type" then
      match found with
      | some _ => .error (.duplicateField "Type")
      | none => do
        let type ← StateType.decode origin value
        StateType.scan origin (some type) rest
    else do
      origin.check value
      StateType.scan origin found rest

/-! ## Reading -/

/-- A field of a graph. -/
inductive Graph.Field
  | comment
  | startAt
  | states
deriving DecidableEq

/-- The key of a field. -/
def Graph.Field.key : Graph.Field → String
  | .comment => "Comment"
  | .startAt => "StartAt"
  | .states => "States"

/-- The fields, in the order of declaration. -/
def Graph.fields : List Graph.Field :=
  [.comment, .startAt, .states]

/-- The fields as those of a record. -/
def Graph.shape : Decode.RecordShape Graph.Field where
  name := "Branch"
  order := Graph.fields
  key := Graph.Field.key
  ofKey? key := Graph.fields.find? (·.key == key)

mutual

/-- Reads a state. -/
def State.decode (origin : Origin) : Syntax → Except Decode.Error State
  | .object members => do
    let inner ← origin.inner
    let type ← StateType.scan inner none members
    let r ← State.decodeFields type (.object members)
    return r.toState type
  | .array .done => do
    let _ ← origin.inner
    .error (.missingField "Type")
  | .array (.fault f) => do
    let _ ← origin.inner
    .error (.malformed f.wanted)
  | .array (.more tag rest) => do
    let inner ← origin.inner
    let type ← StateType.decode inner tag
    inner.checkItems rest
    let r ← State.decodeFields type (.array rest)
    return r.toState type
  | s => .error (Decode.mismatch (.tagged "State") s)
termination_by s => (sizeOf s, 1)

/-- Reads the fields of a state of a type. -/
def State.decodeFields (type : StateType) (s : Syntax) :
    Except Decode.Error (State.Record Graph) :=
  Decode.readRecord .kept (State.shape type) ({} : State.Record Graph) s fun _ r f v _ =>
    match f with
    | .branches => return { r with branches := ← Graph.decodeList v }
    | .iterator => return { r with iterator := ← Graph.decodeOptional v }
    | f => r.read f v
termination_by (sizeOf s, 0)

/-- Reads a graph that was kept. -/
def Graph.decode (s : Syntax) : Except Decode.Error Graph :=
  Decode.readRecord .kept Graph.shape (⟨none, "", []⟩ : Graph) s fun origin g f v _ =>
    match f with
    | .comment => return ⟨← Decode.optional Decode.string v, g.startAt, g.states⟩
    | .startAt => return ⟨g.comment, ← Decode.string v, g.states⟩
    | .states => return ⟨g.comment, g.startAt, ← Graph.decodeStates origin v⟩
termination_by (sizeOf s, 0)

/-- Reads a graph that may be null. -/
def Graph.decodeOptional : Syntax → Except Decode.Error (Option Graph)
  | .null => .ok none
  | s => (Graph.decode s).map some
termination_by s => (sizeOf s, 1)

/-- Reads a list of graphs. -/
def Graph.decodeList : Syntax → Except Decode.Error (List Graph)
  | .array items => Graph.decodeItems items
  | s => .error (Decode.mismatch .sequence s)
termination_by s => (sizeOf s, 0)

/-- Reads the items of a list of graphs. -/
def Graph.decodeItems : Items → Except Decode.Error (List Graph)
  | .done => .ok []
  | .fault f => .error (.malformed f.wanted)
  | .more item rest => do
    let g ← Graph.decode item
    let gs ← Graph.decodeItems rest
    return g :: gs
termination_by items => (sizeOf items, 0)

/-- Reads named states. -/
def Graph.decodeStates (origin : Origin) : Syntax → Except Decode.Error (List (String × State))
  | .object members => do
    let inner ← origin.inner
    Graph.decodeMembers inner [] members
  | s => .error (Decode.mismatch .map s)
termination_by s => (sizeOf s, 0)

/-- Reads the members of an object as named states, put among those before them. -/
def Graph.decodeMembers (origin : Origin) (before : List (String × State)) :
    Members → Except Decode.Error (List (String × State))
  | .done => .ok before
  | .fault f => .error (.malformed f.wanted)
  | .more key value rest => do
    let name ← key.name?.mapError .malformed
    let s ← State.decode origin value
    Graph.decodeMembers origin (Graph.insertState name s before) rest
termination_by members => (sizeOf members, 0)

end

end StatesLang
