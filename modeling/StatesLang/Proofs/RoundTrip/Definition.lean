import StatesLang.Definition
import StatesLang.Proofs.RoundTrip.Document
import StatesLang.Proofs.RoundTrip.State

/-!
# Definitions read back

* `Definition.decode_withStates`: a definition whose states may be written in other ways.
* **`Definition.decode_toJson`**: the document of a definition is read as it was, as far as there is
  room for it.
* **`Definition.parse_compact`**, **`Definition.parse_pretty`**: so are its texts.
-/

namespace StatesLang

open Json (Syntax Items Members)
open Decode (Origin)

namespace Definition

/-- A field as a value, if it is written at all, where the states are written already. -/
def write? (d : Definition) (states : Json) : Field → Option Json
  | .comment => d.graph.comment.map .string
  | .version => d.version.map .string
  | .startAt => some (.string d.graph.startAt)
  | .timeoutSeconds => d.timeoutSeconds.map .ofInt64
  | .states => some states

/-- Takes a field over from another definition. -/
def copy (t d : Definition) : Field → Definition
  | .comment => { d with graph := ⟨t.graph.comment, d.graph.startAt, d.graph.states⟩ }
  | .version => { d with version := t.version }
  | .startAt => { d with graph := ⟨d.graph.comment, t.graph.startAt, d.graph.states⟩ }
  | .timeoutSeconds => { d with timeoutSeconds := t.timeoutSeconds }
  | .states => { d with graph := ⟨d.graph.comment, d.graph.startAt, t.graph.states⟩ }

/-- The document of a definition whose states are written already. -/
def withStates (d : Definition) (states : Json) : Json :=
  .object (Decode.written shape (d.write? states) fields)

theorem toJson_eq (d : Definition) :
    d.toJson = d.withStates (.object (Graph.statesToJson d.graph.states)) :=
  Decode.ofMembers_map shape (d.write? _) fields

theorem depth_withStates (d : Definition) (states : Json) :
    (d.withStates states).depth = states.depth + 1 := by
  rw [withStates, Json.depth]
  refine congrArg (· + 1) (Nat.le_antisymm ?_ ?_)
  · refine Decode.depthOfMembers_written.2 fun f _ v hv => ?_
    cases f with
    | states =>
      cases hv
      exact Nat.le_refl _
    | startAt =>
      cases hv
      exact Nat.zero_le _
    | comment | version | timeoutSeconds =>
      obtain ⟨_, -, rfl⟩ := Option.map_eq_some_iff.1 hv
      exact Nat.zero_le _
  · exact Decode.depthOfMembers_written.1 (Nat.le_refl _) .states (by decide) _ rfl

/-- Reads a field that is written: only the states need room. -/
def step (t : Definition) (states : Json) (o : Origin) (d : Definition) (f : Field) :
    Except Decode.Error Definition :=
  match f with
  | .states => o.limit states.depth (t.copy d .states)
  | f => .ok (t.copy d f)

theorem read_write {t : Definition} {states : Json} {o : Origin}
    (hs : Graph.decodeStates o (Syntax.ofJson states) = o.limit states.depth t.graph.states)
    {f : Field} {v : Json} (h : t.write? states f = some v) (d : Definition) :
    d.read o f (Syntax.ofJson v) = t.step states o d f := by
  obtain ⟨⟨comment, startAt, _⟩, version, timeoutSeconds⟩ := d
  cases f with
  | comment => rw [read, Decode.optional_string h]; rfl
  | version => rw [read, Decode.optional_string h]; rfl
  | startAt => cases h; rfl
  | timeoutSeconds => rw [read, Decode.optional_int64 h]; rfl
  | states =>
    cases h
    rw [read, hs]
    unfold step Origin.limit
    split <;> rfl

/-- A definition is read from its document, as far as there is room for it, whichever document its
states are read from. -/
theorem decode_withStates {d : Definition} {states : Json} {o : Origin} (ho : o.Admits 0)
    (hs : ∀ i : Origin, i.Admits 0 →
      Graph.decodeStates i (Syntax.ofJson states) = i.limit states.depth d.graph.states) :
    decode o (Syntax.ofJson (d.withStates states)) = o.limit (d.withStates states).depth d := by
  rw [depth_withStates, withStates, Syntax.ofJson, decode, Decode.readRecord_object]
  refine Origin.inner_limit ho fun i hi => ?_
  refine (Decode.readMembers_written fields (by decide) (by decide)
    (fun r f _ v _ h => read_write (hs i hi) h r) [] (fun _ _ => List.not_mem_nil) _ rfl _ _).trans
      ?_
  obtain ⟨⟨comment, startAt, states'⟩, version, timeoutSeconds⟩ := d
  -- behind the scalar fields, only the states are left to be read
  have hlast := bind_pure (i.limit states.depth
    (⟨⟨comment, startAt, states'⟩, version, timeoutSeconds⟩ : Definition))
  cases comment <;> cases version <;> cases timeoutSeconds <;> exact hlast

/-- **The document of a definition is read as it was**, as far as there is room for it. -/
theorem decode_toJson {d : Definition} (hd : d.graph.IsReadable) {o : Origin} (ho : o.Admits 0) :
    decode o (Syntax.ofJson d.toJson) = o.limit d.toJson.depth d := by
  rw [toJson_eq]
  exact decode_withStates ho fun _ hi => Graph.decodeStates_toJson hd hi

/-! ## Texts -/

theorem parse_of_read {text : String} {j : Json} {d : Definition}
    (hread : Json.Text.read text = ⟨Syntax.ofJson j, false⟩)
    (hd : ∀ o : Origin, o.Admits 0 → decode o (Syntax.ofJson j) = o.limit j.depth d) :
    parse text = if j.depth < Json.nestingLimit then .ok d
      else .error (.malformed .recursionLimit) := by
  have hroom : (Origin.text Json.nestingLimit).Admits 0 := by decide
  rw [parse, Decode.wholeText, hread]
  dsimp only
  rw [hd _ hroom, Origin.limit]
  by_cases hdepth : j.depth < Json.nestingLimit
  · rw [if_pos (show (Origin.text Json.nestingLimit).Admits _ from hdepth), if_pos hdepth]
    rfl
  · rw [if_neg (show ¬ (Origin.text Json.nestingLimit).Admits _ from hdepth), if_neg hdepth]
    rfl

/-- **A definition reads back from its compact text**, unless it is nested too deep. -/
theorem parse_compact {d : Definition} (hd : d.graph.IsReadable)
    (hx : Json.ReadBack d.toJson.doubles) :
    parse d.compact = if d.toJson.depth < Json.nestingLimit then .ok d
      else .error (.malformed .recursionLimit) :=
  parse_of_read (Json.read_compact hx) fun _ ho => decode_toJson hd ho

/-- **A definition reads back from its text over several lines**, unless it is nested too deep. -/
theorem parse_pretty {d : Definition} (hd : d.graph.IsReadable)
    (hx : Json.ReadBack d.toJson.doubles) :
    parse d.pretty = if d.toJson.depth < Json.nestingLimit then .ok d
      else .error (.malformed .recursionLimit) :=
  parse_of_read (Json.read_pretty hx) fun _ ho => decode_toJson hd ho

end Definition

end StatesLang
