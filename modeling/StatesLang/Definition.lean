import StatesLang.Json.Printer
import StatesLang.State.Codec
import StatesLang.State.Equality

/-!
# Definitions

* `Definition`: a graph with a version and a time limit for the whole execution.
* `Definition.toJson`: its document.
* `Definition.decode`, `Definition.parse`: definitions out of values and texts.
-/

namespace StatesLang

open Json (Syntax)
open Decode (Origin)

/-- A state machine as it is written, valid or not. -/
structure Definition where
  graph : Graph
  version : Option String := none
  timeoutSeconds : Option Int64 := none
deriving DecidableEq

namespace Definition

/-- A definition without states. -/
def empty (startAt : String) : Definition :=
  { graph := ⟨none, startAt, []⟩ }

/-- The document of a definition. -/
def toJson (d : Definition) : Json :=
  .ofMembers [("Comment", d.graph.comment.map .string), ("Version", d.version.map .string),
    ("StartAt", some (.string d.graph.startAt)),
    ("TimeoutSeconds", d.timeoutSeconds.map .ofInt64),
    ("States", some (.object (Graph.statesToJson d.graph.states)))]

/-! ## Reading -/

/-- A field of a definition. -/
inductive Field
  | comment
  | version
  | startAt
  | timeoutSeconds
  | states
deriving DecidableEq

/-- The key of a field. -/
def Field.key : Field → String
  | .comment => "Comment"
  | .version => "Version"
  | .startAt => "StartAt"
  | .timeoutSeconds => "TimeoutSeconds"
  | .states => "States"

/-- The fields, in the order of declaration. -/
def fields : List Field :=
  [.comment, .version, .startAt, .timeoutSeconds, .states]

/-- The fields as those of a record. -/
def shape : Decode.RecordShape Field where
  name := "StateMachineDefinition"
  order := fields
  key := Field.key
  ofKey? key := fields.find? (·.key == key)

/-- Sets a field. -/
def read (d : Definition) (origin : Origin) (f : Field) (v : Syntax) :
    Except Decode.Error Definition := do
  let ⟨⟨comment, startAt, states⟩, version, timeoutSeconds⟩ := d
  match f with
  | .comment =>
    return ⟨⟨← Decode.optional Decode.string v, startAt, states⟩, version, timeoutSeconds⟩
  | .version =>
    return ⟨⟨comment, startAt, states⟩, ← Decode.optional Decode.string v, timeoutSeconds⟩
  | .startAt => return ⟨⟨comment, ← Decode.string v, states⟩, version, timeoutSeconds⟩
  | .timeoutSeconds =>
    return ⟨⟨comment, startAt, states⟩, version, ← Decode.optional Decode.int64 v⟩
  | .states =>
    return ⟨⟨comment, startAt, ← Graph.decodeStates origin v⟩, version, timeoutSeconds⟩

/-- Reads a definition. -/
def decode (origin : Origin) (s : Syntax) : Except Decode.Error Definition :=
  Decode.readRecord origin shape (empty "") s fun inner d f v _ => d.read inner f v

/-- Reads the definition that a text holds. -/
def parse (text : String) : Except Decode.Error Definition :=
  Decode.wholeText text decode

/-- The text of a definition. -/
def compact (d : Definition) : String :=
  d.toJson.compact

/-- The text of a definition, laid out over lines. -/
def pretty (d : Definition) : String :=
  d.toJson.pretty

end Definition

/-- Reads the state that a text holds. -/
def State.parse (text : String) : Except Decode.Error State :=
  Decode.wholeText text State.decode

end StatesLang
