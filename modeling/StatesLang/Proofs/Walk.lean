import Mathlib
import StatesLang.Machine
import StatesLang.Proofs.Structure

/-!
# Runs of machines

* `Graph.Advance`, `Graph.Move`: how an execution goes on with an input, and all that a state may
  lead to.
* `Graph.Move.exists_state`: a move in a graph without problems leads to one of its states.
* **`Machine.run_stays`**: no run of a machine leaves its graph, and only terminal states and
  choices where nothing holds end one.
-/

namespace StatesLang

/-! ## Runs -/

/-- How an execution goes on from a state that takes an input: to the next state, or where the
choice goes. -/
inductive Graph.Advance (g : Graph) (input : Json) : String → String → Prop
  | next {n m : String} {s : State} (hs : g.find? n = some s) (hm : s.next? = some m) :
      Graph.Advance g input n m
  | choose {n m : String} {c : State.Choice} (hs : g.find? n = some (.choice c))
      (hm : c.choose input = some m) : Graph.Advance g input n m

/-- All that a state may lead to: where an execution goes on with some input, and all names that the
state refers to, those of its catchers included. -/
inductive Graph.Move (g : Graph) : String → String → Prop
  | advance {n m : String} {input : Json} (h : Graph.Advance g input n m) : Graph.Move g n m
  | transition {n m : String} {s : State} (hs : g.find? n = some s) (hm : m ∈ s.transitions) :
      Graph.Move g n m

theorem State.Choice.mem_targets_of_choose {c : State.Choice} {input : Json} {m : String}
    (h : c.choose input = some m) : m ∈ c.targets := by
  unfold State.Choice.choose at h
  split at h
  · next r hr =>
    cases h
    exact List.mem_append_left _ (List.mem_map_of_mem (List.mem_of_find?_eq_some hr))
  · exact List.mem_append_right _ (by simp [h])

theorem State.Choice.choose_eq_none {c : State.Choice} {input : Json} (h : c.choose input = none) :
    (∀ r ∈ c.rules, r.eval input = false) ∧ c.default = none := by
  unfold State.Choice.choose at h
  split at h
  · cases h
  · next hr => exact ⟨fun r hm => by simpa using List.find?_eq_none.1 hr r hm, h⟩

theorem Graph.Move.mem_transitions {g : Graph} {n m : String} {s : State} (h : g.Move n m)
    (hs : g.find? n = some s) : m ∈ s.transitions := by
  cases h with
  | transition hs' hm => rw [hs] at hs'; cases hs'; exact hm
  | advance h =>
    cases h with
    | next hs' hm => rw [hs] at hs'; cases hs'; simp [State.transitions, hm]
    | choose hs' hm =>
      rw [hs] at hs'
      cases hs'
      simp [State.transitions, State.Choice.mem_targets_of_choose hm]

/-- One move of a run keeps it among the states of its graph. -/
theorem Graph.Move.exists_state {settings : Settings.Validation} {g : Graph}
    {place : Validation.Place} {depth : Nat}
    (hg : Validation.graphProblems settings place depth g = []) {n m : String} (h : g.Move n m)
    (hn : ∃ s, g.find? n = some s) : ∃ s, g.find? m = some s := by
  obtain ⟨s, hs⟩ := hn
  have hm := Validation.contains_of_mem_transitions (Validation.stateProblems_of_find hg hs)
    (h.mem_transitions hs)
  exact Option.isSome_iff_exists.1 hm

/-- **No run leaves its graph.** Of every graph in a machine, the start names a state, and so does
every name that a run of any length comes to from there. An execution that cannot go on with its
input stands at a terminal state, or at a choice none of whose rules holds and that has no default;
a state that leads nowhere at all is terminal. -/
theorem Machine.run_stays {settings : Settings.Validation} {d : Definition} {m : Machine}
    (hm : Machine.ofDefinition settings d = .ok m) {path : Validation.Place} {g : Graph}
    (hg : m.definition.graph.Inside path g) :
    (∃ s, g.find? g.startAt = some s) ∧
      ∀ n, Relation.ReflTransGen g.Move g.startAt n → ∃ s, g.find? n = some s ∧
        (∀ input, (∀ k, ¬ g.Advance input n k) → s.isTerminal = true ∨
          ∃ c, s = .choice c ∧ (∀ r ∈ c.rules, r.eval input = false) ∧ c.default = none) ∧
        ((∀ k, ¬ g.Move n k) → s.isTerminal = true) := by
  obtain ⟨hd, hp⟩ := Machine.of_ofDefinition hm
  obtain ⟨depth, hsound⟩ :=
    Validation.graphProblems_inside (Validation.graphProblems_of_problems hp) (hd ▸ hg)
  have hstart := Option.isSome_iff_exists.1 (Validation.contains_start hsound)
  refine ⟨hstart, fun n hrun => ?_⟩
  have hn : ∃ s, g.find? n = some s := by
    induction hrun with
    | refl => exact hstart
    | tail _ hmove ih => exact hmove.exists_state hsound ih
  obtain ⟨s, hs⟩ := hn
  have hgo := Validation.goes_on (Validation.stateProblems_of_find hsound hs)
  refine ⟨s, hs, fun input hstuck => ?_, fun hstuck => ?_⟩
  · rcases hgo with ht | ⟨k, hk⟩ | ⟨c, rfl, _⟩
    · exact Or.inl ht
    · exact absurd (.next hs hk) (hstuck k)
    · rcases hc : c.choose input with _ | k
      · exact Or.inr ⟨c, rfl, State.Choice.choose_eq_none hc⟩
      · exact absurd (.choose hs hc) (hstuck k)
  · rcases hgo with ht | ⟨k, hk⟩ | ⟨c, rfl, hrules⟩
    · exact ht
    · exact absurd (.advance (Graph.Advance.next hs hk : g.Advance .null n k)) (hstuck k)
    · obtain ⟨r, rest, hr⟩ := List.exists_cons_of_ne_nil hrules
      exact absurd (.transition hs (by simp [State.transitions, State.Choice.targets, hr]))
        (hstuck r.next)

namespace Machine

/-- A choice without a default inside a map, with a catcher beside it. -/
def errand : Definition where
  graph := ⟨none, "Each", [
    ("Each", .map { exit := ⟨some "Done", false⟩,
                    recovery := ⟨[], [⟨["States.ALL"], "Done", .unset, none⟩]⟩ } (some
      ⟨none, "Call", [
        ("Call", .task { resource := "mail", exit := ⟨some "Sort", false⟩,
                         recovery := ⟨[], [⟨["States.ALL"], "Lost", .unset, none⟩]⟩ }),
        ("Lost", .fail {}),
        ("Sort", .choice { rules := [⟨.test "$.late" .isPresent true, "Call", none⟩] })]⟩)),
    ("Done", .succeed {})]⟩

theorem errand_run_stays :
    ∃ m, ofDefinition { checkReachability := false } errand = .ok m ∧
      ∀ g, m.definition.graph.Inside [.state "Each", .iterator] g →
        ∀ n, Relation.ReflTransGen g.Move g.startAt n → ∃ s, g.find? n = some s := by
  have h : Validation.problems { checkReachability := false } errand = [] := by cbv
  refine ⟨_, ofDefinition_of_valid h, fun g hg n hn => ?_⟩
  obtain ⟨s, hs, -⟩ := (run_stays (ofDefinition_of_valid h) hg).2 n hn
  exact ⟨s, hs⟩

end Machine

end StatesLang
