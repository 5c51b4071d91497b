import StatesLang.State.Basic
import StatesLang.Validation.Problem

/-!
# Graphs inside graphs

A graph owns the branches of its parallel states and the iterators of its maps.

* `Graph.Inside g path h`: `h` is `g` or stands inside it; `path` leads there.
* `Graph.located`: all graphs inside a graph with their places, each before those inside it.
* **`Graph.mem_located`**: these are the graphs inside, and no others.
-/

namespace StatesLang

open Validation (Place Segment)

/-- The graphs inside a graph, the graph itself among them, and the steps that lead there. -/
inductive Graph.Inside : Graph → Place → Graph → Prop
  | here (g : Graph) : Graph.Inside g [] g
  | branch {g b h : Graph} {name : String} {p : State.Parallel} {branches : List Graph} {i : Nat}
      {path : Place} (hs : (name, State.parallel p branches) ∈ g.states)
      (hb : branches[i]? = some b) (hh : Graph.Inside b path h) :
      Graph.Inside g (.state name :: .branch i :: path) h
  | iterator {g b h : Graph} {name : String} {m : State.Each} {path : Place}
      (hs : (name, State.map m (some b)) ∈ g.states) (hh : Graph.Inside b path h) :
      Graph.Inside g (.state name :: .iterator :: path) h

mutual

/-- All graphs inside a graph at a place, each with its own place and before those inside it. -/
def Graph.located (place : Place) : Graph → List (Place × Graph)
  | ⟨comment, startAt, states⟩ =>
    (place, ⟨comment, startAt, states⟩) :: Graph.locatedInStates place states

/-- The same for the graphs inside named states. -/
def Graph.locatedInStates (place : Place) : List (String × State) → List (Place × Graph)
  | [] => []
  | (name, s) :: rest =>
    Graph.locatedInState (place.at (.state name)) s ++ Graph.locatedInStates place rest

/-- The same for the graphs inside a state. -/
def Graph.locatedInState (place : Place) : State → List (Place × Graph)
  | .parallel _ branches => Graph.locatedInBranches place 0 branches
  | .map _ (some iterator) => Graph.located (place.at .iterator) iterator
  | .map _ none | .task _ | .pass _ | .choice _ | .wait _ | .succeed _ | .fail _ => []

/-- The same for the graphs of a parallel state, from an index on. -/
def Graph.locatedInBranches (place : Place) (index : Nat) : List Graph → List (Place × Graph)
  | [] => []
  | g :: gs =>
    Graph.located (place.at (.branch index)) g ++ Graph.locatedInBranches place (index + 1) gs

end

namespace Graph

/-! ## Every listed graph stands inside -/

mutual

theorem inside_of_mem_located {place q : Place} {h : Graph} : ∀ g : Graph,
    (q, h) ∈ g.located place → ∃ path, g.Inside path h ∧ q = place ++ path
  | ⟨comment, startAt, states⟩, hm => by
    rw [located, List.mem_cons] at hm
    rcases hm with he | hm
    · obtain ⟨rfl, rfl⟩ := Prod.mk.inj he
      exact ⟨[], .here _, by simp⟩
    · obtain ⟨name, s, path, hs, hin, rfl⟩ := inside_of_mem_states states hm
      exact ⟨.state name :: path, hin _ name hs, rfl⟩

theorem inside_of_mem_states {place q : Place} {h : Graph} : ∀ states : List (String × State),
    (q, h) ∈ locatedInStates place states → ∃ name s path, (name, s) ∈ states ∧
      (∀ (g : Graph) n, (n, s) ∈ g.states → g.Inside (.state n :: path) h) ∧
      q = place ++ .state name :: path
  | [], hm => by simp [locatedInStates] at hm
  | (name, s) :: rest, hm => by
    rw [locatedInStates, List.mem_append] at hm
    rcases hm with hm | hm
    · obtain ⟨path, hin, rfl⟩ := inside_of_mem_state s hm
      exact ⟨name, s, path, List.mem_cons_self, hin, by simp [Place.at]⟩
    · obtain ⟨n, t, path, ht, hin, he⟩ := inside_of_mem_states rest hm
      exact ⟨n, t, path, List.mem_cons_of_mem _ ht, hin, he⟩

theorem inside_of_mem_state {place q : Place} {h : Graph} : ∀ s : State,
    (q, h) ∈ locatedInState place s → ∃ path,
      (∀ (g : Graph) n, (n, s) ∈ g.states → g.Inside (.state n :: path) h) ∧ q = place ++ path
  | .parallel _ branches, hm => by
    rw [locatedInState] at hm
    obtain ⟨i, b, path, hb, hh, rfl⟩ := inside_of_mem_branches 0 branches hm
    exact ⟨.branch (0 + i) :: path, fun _ _ hs => .branch hs (by rwa [Nat.zero_add]) hh, rfl⟩
  | .map _ (some iterator), hm => by
    rw [locatedInState] at hm
    obtain ⟨path, hh, rfl⟩ := inside_of_mem_located iterator hm
    exact ⟨.iterator :: path, fun _ _ hs => .iterator hs hh, by simp [Place.at]⟩
  | .map _ none, hm | .task _, hm | .pass _, hm | .choice _, hm | .wait _, hm | .succeed _, hm
  | .fail _, hm => by simp [locatedInState] at hm

theorem inside_of_mem_branches {place q : Place} {h : Graph} (index : Nat) : ∀ gs : List Graph,
    (q, h) ∈ locatedInBranches place index gs → ∃ i b path, gs[i]? = some b ∧ b.Inside path h ∧
      q = place ++ .branch (index + i) :: path
  | [], hm => by simp [locatedInBranches] at hm
  | g :: gs, hm => by
    rw [locatedInBranches, List.mem_append] at hm
    rcases hm with hm | hm
    · obtain ⟨path, hh, rfl⟩ := inside_of_mem_located g hm
      exact ⟨0, g, path, rfl, hh, by simp [Place.at]⟩
    · obtain ⟨i, b, path, hb, hh, rfl⟩ := inside_of_mem_branches (index + 1) gs hm
      exact ⟨i + 1, b, path, hb, hh, by rw [Nat.add_assoc, Nat.add_comm 1 i]⟩

end

/-! ## Every graph inside is listed -/

theorem locatedInState_subset {place : Place} {name : String} {s : State}
    {states : List (String × State)} (hs : (name, s) ∈ states) :
    locatedInState (place.at (.state name)) s ⊆ locatedInStates place states := by
  induction states with
  | nil => cases hs
  | cons t rest ih =>
    obtain ⟨n, u⟩ := t
    rw [locatedInStates]
    rcases List.mem_cons.1 hs with he | hs
    · obtain ⟨rfl, rfl⟩ := Prod.mk.inj he
      exact List.subset_append_left _ _
    · exact List.subset_append_of_subset_right _ (ih hs)

theorem located_subset_branches {place : Place} {b : Graph} {gs : List Graph} {i : Nat}
    (hb : gs[i]? = some b) (index : Nat) :
    b.located (place.at (.branch (index + i))) ⊆ locatedInBranches place index gs := by
  induction gs generalizing i index with
  | nil => simp at hb
  | cons g gs ih =>
    rw [locatedInBranches]
    cases i with
    | zero =>
      rw [List.getElem?_cons_zero, Option.some.injEq] at hb
      rw [hb]
      exact List.subset_append_left _ _
    | succ i =>
      rw [List.getElem?_cons_succ] at hb
      rw [show index + (i + 1) = index + 1 + i by omega]
      exact List.subset_append_of_subset_right _ (ih hb (index + 1))

theorem mem_located_self (place : Place) : ∀ g : Graph, (place, g) ∈ g.located place
  | ⟨_, _, _⟩ => by rw [located]; exact List.mem_cons_self

theorem locatedInStates_subset (place : Place) : ∀ g : Graph,
    locatedInStates place g.states ⊆ g.located place
  | ⟨_, _, _⟩ => by rw [located]; exact List.subset_cons_self _ _

theorem Inside.mem_located {g h : Graph} {path : Place} (hin : g.Inside path h) (place : Place) :
    (place ++ path, h) ∈ g.located place := by
  induction hin generalizing place with
  | here g => rw [List.append_nil]; exact mem_located_self place g
  | @branch g b h name p branches i path hs hb _ ih =>
    refine locatedInStates_subset place g (locatedInState_subset hs ?_)
    rw [locatedInState]
    refine located_subset_branches hb 0 ?_
    simpa [Place.at] using ih ((place.at (.state name)).at (.branch i))
  | @iterator g b h name m path hs _ ih =>
    refine locatedInStates_subset place g (locatedInState_subset hs ?_)
    rw [locatedInState]
    simpa [Place.at] using ih ((place.at (.state name)).at .iterator)

/-- **The listed graphs are those inside**, at their places. -/
theorem mem_located {place q : Place} {g h : Graph} :
    (q, h) ∈ g.located place ↔ ∃ path, g.Inside path h ∧ q = place ++ path := by
  constructor
  · exact inside_of_mem_located g
  · rintro ⟨path, hin, rfl⟩
    exact hin.mem_located place

end Graph

end StatesLang
