import Mathlib
import StatesLang.Machine
import StatesLang.Proofs.Structure
import StatesLang.Proofs.RoundTrip.Parsed.Definition

/-!
# Canonical texts

* `Validation.isFull_of_problems`: nothing is left out in a definition without problems.
* **`Definition.parse_rendering`**: a definition that was read reads back from both of its texts,
  and a machine gives the same machine again; only the limit of nesting can stand in the way, and
  only if something was left out.
* `Definition.parse_nested`: maps inside one another, over a graph that is written in any way.
* `Definition.nested_rendering_too_deep`: a definition that was read and does not read back.
-/

namespace StatesLang

open Json (Syntax Items Members)
open Decode (Origin)

/-! ## Definitions without problems -/

namespace Validation

variable {settings : Settings.Validation}

/-- **Nothing is left out in a definition without problems.** -/
theorem isFull_of_problems {d : Definition} (hd : problems settings d = []) : d.graph.IsFull := by
  intro path h hin
  have hwell := wellFormed_of_problems hd hin
  refine ⟨hwell.nonempty, fun ⟨name, s⟩ hs => ?_⟩
  have hrecovery := State.recovery_wellFormed (hwell.state name s hs)
  exact ⟨fun r hr => hrecovery.retried.nonempty _ (List.mem_map_of_mem hr),
    fun c hc => hrecovery.caught.nonempty _ (List.mem_map_of_mem hc)⟩

end Validation

/-! ## Definitions that were read -/

namespace Definition

/-- **A definition that was read reads back** from both of its texts, unless they are nested too
deep for the reader; so the texts of what is read back are the same again. They are not too deep if
every graph has states and every retrier and catcher names errors. That is so under all settings
under which the definition gives a machine, and then what is read back gives the same machine. -/
theorem parse_rendering {text : String} {d : Definition} (h : parse text = .ok d)
    (hx : Json.ReadBack d.toJson.doubles) :
    (∀ r ∈ [d.compact, d.pretty],
      (parse r = if d.toJson.depth < Json.nestingLimit then .ok d
        else .error (.malformed .recursionLimit)) ∧
      ∀ d', parse r = .ok d' → d' = d ∧ d'.compact = d.compact ∧ d'.pretty = d.pretty) ∧
    (d.graph.IsFull → d.toJson.depth < Json.nestingLimit) ∧
    ∀ settings m, Machine.ofDefinition settings d = .ok m →
      ∀ r ∈ [m.definition.compact, m.definition.pretty],
        ∃ d', parse r = .ok d' ∧ Machine.ofDefinition settings d' = .ok m := by
  obtain ⟨hreadable, hdepth⟩ := parse_fits h
  have hparse : ∀ r ∈ [d.compact, d.pretty], parse r =
      if d.toJson.depth < Json.nestingLimit then .ok d
        else .error (.malformed .recursionLimit) := by
    intro r hr
    rcases List.mem_cons.1 hr with rfl | hr
    · exact parse_compact hreadable hx
    · rw [List.mem_singleton.1 hr]
      exact parse_pretty hreadable hx
  refine ⟨fun r hr => ⟨hparse r hr, fun d' hd' => ?_⟩, hdepth, fun settings m hm r hr => ?_⟩
  · rw [hparse r hr] at hd'
    split at hd'
    · cases hd'
      exact ⟨rfl, rfl, rfl⟩
    · cases hd'
  · obtain ⟨rfl, hvalid⟩ := Machine.of_ofDefinition hm
    have hroom := hdepth (Validation.isFull_of_problems hvalid)
    exact ⟨m.definition, (hparse r hr).trans (if_pos hroom), hm⟩

/-- The growth of an interval by one half. -/
def halfAgain : Binary64 := ⟨false, 3 <<< 1073, by decide +kernel⟩

/-- A map over a task that is tried again at growing intervals. -/
def retrying : Definition where
  graph := ⟨none, "Each", [("Each", .map { exit := ⟨none, true⟩ } (some
    ⟨some "A message", "Send", [("Send", .task {
        resource := "mail"
        scope := ⟨.path "$.message", .null⟩
        recovery := ⟨[⟨["States.Timeout"], some 2, none, some (.finite halfAgain), none⟩], []⟩
        exit := ⟨none, true⟩ })]⟩))]⟩
  version := some "1.0"

theorem readBack_halfAgain : Json.ReadBack [halfAgain] := by
  intro x hx
  rw [List.mem_singleton.1 hx]
  decide +kernel

theorem isReadable_retrying : retrying.graph.IsReadable := by
  refine Graph.isReadable_iff.2 ⟨List.pairwise_singleton _ _, fun p hp => ?_⟩
  rw [List.mem_singleton.1 hp]
  refine ⟨⟨nofun, nofun, nofun, nofun, fun _ ht => absurd ht List.not_mem_nil⟩, nofun,
    fun g hg => ?_⟩
  cases hg
  refine Graph.isReadable_iff.2 ⟨List.pairwise_singleton _ _, fun p hp => ?_⟩
  rw [List.mem_singleton.1 hp]
  refine ⟨⟨nofun, nofun, nofun, nofun, fun t ht x hx => ?_⟩, nofun, nofun⟩
  rw [List.mem_singleton.1 ht] at hx
  cases hx
  exact ⟨halfAgain, rfl⟩

theorem parse_retrying :
    parse retrying.compact = .ok retrying ∧ parse retrying.pretty = .ok retrying ∧
      ∃ m, Machine.ofDefinition {} retrying = .ok m ∧
        ∀ r ∈ [m.definition.compact, m.definition.pretty],
          ∃ d, parse r = .ok d ∧ Machine.ofDefinition {} d = .ok m := by
  have hvalid : Validation.problems {} retrying = [] := by cbv
  have hx : Json.ReadBack retrying.toJson.doubles := readBack_halfAgain
  have hroom : retrying.toJson.depth < Json.nestingLimit := by decide
  have hparse : parse retrying.compact = .ok retrying :=
    (parse_compact isReadable_retrying hx).trans (if_pos hroom)
  have hm := Machine.ofDefinition_of_valid hvalid
  obtain ⟨htexts, -, hmachine⟩ := parse_rendering hparse hx
  exact ⟨hparse, (htexts _ (.tail _ (.head _))).1.trans (if_pos hroom), _, hm, hmachine _ _ hm⟩

end Definition

/-! ## Maps inside maps -/

/-- A map as the only state. -/
def Graph.mapped (g : Graph) : Graph :=
  ⟨none, "Each", [("Each", .map { exit := ⟨none, true⟩ } (some g))]⟩

/-- The document of a map as the only state, over a graph that is written already. -/
def Json.mapped (j : Json) : Json :=
  .object [("Each", .object [("Type", .string "Map"), ("Iterator", j), ("End", .bool true)])]

/-- So many maps inside one another, the innermost over a graph in which all is left out. -/
def Graph.nested : Nat → Graph
  | 0 => ⟨none, "", []⟩
  | k + 1 => (nested k).mapped

/-- The document of so many maps inside one another, where the innermost graph is written. -/
def Json.nested (innermost : Json) : Nat → Json
  | 0 => innermost
  | k + 1 => .object [("StartAt", .string "Each"), ("States", mapped (nested innermost k))]

theorem Json.depth_nested (innermost : Json) (k : Nat) :
    (nested innermost k).depth = 3 * k + innermost.depth := by
  induction k with
  | zero => rw [nested, Nat.mul_zero, Nat.zero_add]
  | succ k ih =>
    simp only [nested, mapped, depth, depthOfMembers, ih]
    omega

theorem Json.doubles_nested {innermost : Json} (h : innermost.doubles = []) (k : Nat) :
    (nested innermost k).doubles = [] := by
  induction k with
  | zero => exact h
  | succ k ih => simp only [nested, mapped, doubles, doublesOfMembers, ih, List.append_nil]

namespace Graph

theorem decodeStates_mapped {g : Graph} {j : Json} (h : decode (Syntax.ofJson j) = .ok g)
    {o : Origin} (ho : o.Admits 0) :
    decodeStates o (Syntax.ofJson j.mapped) = o.limit j.mapped.depth g.mapped.states := by
  -- the map has the iterator as its only value that is no scalar
  have hstate : ∀ i : Origin, i.Admits 0 → State.decode i (Syntax.ofJson
      (.object [("Type", .string "Map"), ("Iterator", j), ("End", .bool true)])) =
      i.limit (Json.depth (.object [("Type", .string "Map"), ("Iterator", j), ("End", .bool true)]))
        (.map { exit := ⟨none, true⟩ } (some g)) := by
    intro i hi
    have hread : State.Record.GraphsRead
        (State.values (.map { exit := ⟨none, true⟩ } (some g))) [] (some j) := by
      refine ⟨State.decodeList_nil, fun j' hj => ?_, nofun⟩
      cases hj
      exact decodeOptional_of_decode h
    have hplain : (State.values (.map { exit := ⟨none, true⟩ } (some g))).IsReadable :=
      ⟨nofun, nofun, nofun, nofun, fun _ ht => absurd ht List.not_mem_nil⟩
    exact State.decode_withGraphs hplain hread .map hi
  rw [Json.mapped, Syntax.ofJson, Members.ofList, Members.ofList, decodeStates, Json.depth]
  refine Origin.inner_limit ho fun i hi => ?_
  rw [decodeMembers, hstate i hi, Json.depthOfMembers]
  refine Origin.limit_bind (?_ : decodeMembers i _ Members.done = i.limit 0 _)
  rw [decodeMembers, Origin.limit, if_pos hi]
  rfl

theorem decode_nested {innermost : Json}
    (h : decode (Syntax.ofJson innermost) = .ok (nested 0)) (k : Nat) :
    decode (Syntax.ofJson (innermost.nested k)) = .ok (nested k) := by
  induction k with
  | zero => exact h
  | succ k ih =>
    exact decode_withStates (g := nested (k + 1)) (decodeStates_mapped ih (o := .kept) trivial)

theorem toJson_nested (k : Nat) : (nested k).toJson = (nested 0).toJson.nested k := by
  induction k with
  | zero => rfl
  | succ k ih =>
    rw [Json.nested, ← ih]
    rfl

end Graph

namespace Definition

/-- A definition with maps inside one another. -/
def nested (k : Nat) : Definition :=
  ⟨Graph.nested k, none, none⟩

/-- **Maps inside one another are read** if they are not too many. -/
theorem parse_nested {innermost : Json}
    (h : Graph.decode (Syntax.ofJson innermost) = .ok (Graph.nested 0)) (k : Nat) {text : String}
    (htext : Json.Text.read text = ⟨Syntax.ofJson (innermost.nested (k + 1)), false⟩) :
    parse text = if 3 * (k + 1) + innermost.depth < Json.nestingLimit then .ok (nested (k + 1))
      else .error (.malformed .recursionLimit) := by
  rw [← Json.depth_nested]
  exact parse_of_read htext fun o ho => decode_withStates (d := nested (k + 1)) ho fun i hi =>
    Graph.decodeStates_mapped (Graph.decode_nested h k) hi

theorem toJson_nested (k : Nat) :
    (nested (k + 1)).toJson = (Graph.nested 0).toJson.nested (k + 1) := by
  rw [Json.nested, ← Graph.toJson_nested]
  rfl

/-- **Not every definition that was read reads back**: what was left out in the innermost of 42 maps
is written one level further down. -/
theorem nested_rendering_too_deep :
    parse ((Json.object []).nested 42).compact = .ok (nested 42) ∧
      Json.ReadBack (nested 42).toJson.doubles ∧
      parse (nested 42).compact = .error (.malformed .recursionLimit) ∧
      parse (nested 42).pretty = .error (.malformed .recursionLimit) := by
  have hx : Json.ReadBack ((Json.object []).nested 42).doubles := by
    rw [Json.doubles_nested rfl]
    exact fun x hx => absurd hx List.not_mem_nil
  have hx' : Json.ReadBack (nested 42).toJson.doubles := by
    rw [toJson_nested, Json.doubles_nested rfl]
    exact fun x hx => absurd hx List.not_mem_nil
  have hempty : Graph.decode (Syntax.ofJson (.object [])) = .ok (Graph.nested 0) := by
    rw [Graph.decode]
    rfl
  have hfull : Graph.decode (Syntax.ofJson (Graph.nested 0).toJson) = .ok (Graph.nested 0) :=
    Graph.decode_toJson _ (Graph.isReadable_iff.2 ⟨.nil, fun _ hp => absurd hp List.not_mem_nil⟩)
  refine ⟨(parse_nested hempty 41 (Json.read_compact hx)).trans (if_pos (by decide)), hx', ?_, ?_⟩
  · refine (parse_nested hfull 41 ?_).trans (if_neg (by decide))
    rw [← toJson_nested]
    exact Json.read_compact hx'
  · refine (parse_nested hfull 41 ?_).trans (if_neg (by decide))
    rw [← toJson_nested]
    exact Json.read_pretty hx'

end Definition

end StatesLang
