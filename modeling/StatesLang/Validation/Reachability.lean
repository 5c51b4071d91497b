import StatesLang.Validation.Structure

/-!
# Ways to a terminal state

Catchers do not count as ways.

* `Graph.steps`: the names that a walk goes on to from a state.
* `Graph.Explored`: the names met so far, with what is known about them.
* `Graph.explore`: the search for a terminal state from a name on. A name whose search is not over
  counts as a dead end.
* `Validation.reachabilityProblems`: the graphs without a way from the start to a terminal state.
* `Validation.problems`: all problems of a definition; ways to terminal states are looked for only
  if there are no others.
-/

namespace StatesLang

namespace Graph

/-- The names that a walk goes on to from a state: none from a terminal one. -/
def steps (s : State) : List String :=
  if s.isTerminal then []
  else
    match s with
    | .choice c => c.default.toList ++ c.rules.map ChoiceRule.next
    | s => s.next?.toList

/-- The names met so far, the last one first: whether a terminal state was found from there. -/
abbrev Explored := List (String × Bool)

/-- Whether a name was not met yet. -/
def Explored.isNew (seen : Explored) (name : String) : Bool :=
  (seen.lookup name).isNone

/-- The number of states that were not met yet. -/
def unexplored (g : Graph) (seen : Explored) : Nat :=
  g.states.countP fun s => seen.isNew s.1

theorem isNew_of_isNew_cons {name : String} {answer : Bool} {seen : Explored} {n : String}
    (h : Explored.isNew ((name, answer) :: seen) n = true) : seen.isNew n = true := by
  simp only [Explored.isNew, List.lookup_cons] at h ⊢
  cases hn : n == name <;> simp_all

theorem unexplored_cons_le (g : Graph) (name : String) (answer : Bool) (seen : Explored) :
    g.unexplored ((name, answer) :: seen) ≤ g.unexplored seen :=
  List.countP_mono_left fun _ _ h => isNew_of_isNew_cons h

theorem mem_of_lookup {name : String} {s : State} {states : List (String × State)}
    (h : lookup name states = some s) : (name, s) ∈ states := by
  induction states with
  | nil => cases h
  | cons t rest ih =>
    obtain ⟨n, u⟩ := t
    by_cases hk : n = name
    · simp only [lookup, hk, if_true, Option.some.injEq] at h
      simp [hk, h]
    · simp only [lookup, hk, if_false] at h
      exact List.mem_cons_of_mem _ (ih h)

theorem countP_lt_of_mem {α : Type} {p q : α → Bool} {l : List α} (hpq : ∀ x, p x → q x) {a : α}
    (ha : a ∈ l) (hp : p a = false) (hq : q a = true) : l.countP p < l.countP q := by
  induction l with
  | nil => cases ha
  | cons b rest ih =>
    rcases List.mem_cons.1 ha with rfl | hb
    · have := List.countP_mono_left (l := rest) fun x _ => hpq x
      simp only [List.countP_cons, hp, hq]
      simp
      omega
    · have hrest := ih hb
      have hhead : (if p b = true then 1 else 0) ≤ (if q b = true then 1 else 0) := by
        have hb' := hpq b
        split <;> simp_all
      simp only [List.countP_cons]
      omega

theorem unexplored_cons_lt {g : Graph} {name : String} {s : State} (answer : Bool)
    {seen : Explored} (hs : g.find? name = some s) (hn : seen.lookup name = none) :
    g.unexplored ((name, answer) :: seen) < g.unexplored seen :=
  countP_lt_of_mem (fun _ h => isNew_of_isNew_cons h) (mem_of_lookup hs)
    (by simp [Explored.isNew]) (by simp [Explored.isNew, hn])

mutual

/-- Searches for a terminal state from a name on: whether one was found, and all names met. -/
def explore (g : Graph) (name : String) (seen : Explored) :
    { r : Bool × Explored // g.unexplored r.2 ≤ g.unexplored seen } :=
  match hn : seen.lookup name with
  | some answer => ⟨(answer, seen), Nat.le_refl _⟩
  | none =>
    match hs : g.find? name with
    | none => ⟨(false, (name, false) :: seen), unexplored_cons_le ..⟩
    | some s =>
      have hlt := unexplored_cons_lt false hs hn
      let r := g.exploreAll (steps s) ((name, false) :: seen)
      let answer := s.isTerminal || r.1.1
      ⟨(answer, (name, answer) :: r.1.2),
        Nat.le_trans (unexplored_cons_le ..) (Nat.le_trans r.2 (Nat.le_of_lt hlt))⟩
termination_by (g.unexplored seen, 0)

/-- Searches from all of some names on, also after a terminal state was found. -/
def exploreAll (g : Graph) (names : List String) (seen : Explored) :
    { r : Bool × Explored // g.unexplored r.2 ≤ g.unexplored seen } :=
  match names with
  | [] => ⟨(false, seen), Nat.le_refl _⟩
  | name :: rest =>
    let a := g.explore name seen
    let b := g.exploreAll rest a.1.2
    ⟨(a.1.1 || b.1.1, b.1.2), Nat.le_trans b.2 a.2⟩
termination_by (g.unexplored seen, names.length + 1)
decreasing_by
  · exact Prod.Lex.right _ (by omega)
  · have := a.2
    rcases Nat.lt_or_eq_of_le this with h | h
    · exact Prod.Lex.left _ _ h
    · rw [h]; exact Prod.Lex.right _ (by simp)

end

/-- Whether the search from the start finds a terminal state. -/
def reachesTerminal (g : Graph) : Bool :=
  (g.explore g.startAt []).1.1

end Graph

namespace Validation

mutual

/-- The graphs without a way to a terminal state: a graph, then those inside it. -/
def reachabilityProblems (place : Place) : Graph → List Problem
  | ⟨comment, startAt, states⟩ =>
    (if Graph.reachesTerminal ⟨comment, startAt, states⟩ then [] else [⟨place, .noTerminal⟩]) ++
      innerReachability place states

/-- The same for the graphs inside named states. -/
def innerReachability (place : Place) : List (String × State) → List Problem
  | [] => []
  | (name, .parallel _ branches) :: rest =>
    branchReachability (Place.at place (.state name)) 0 branches ++ innerReachability place rest
  | (name, .map _ (some iterator)) :: rest =>
    reachabilityProblems (Place.at (Place.at place (.state name)) .iterator) iterator ++
      innerReachability place rest
  | _ :: rest => innerReachability place rest

/-- The same for the graphs of a parallel state, from an index on. -/
def branchReachability (place : Place) (index : Nat) : List Graph → List Problem
  | [] => []
  | g :: gs =>
    reachabilityProblems (Place.at place (.branch index)) g ++
      branchReachability place (index + 1) gs

end

/-- All problems of a definition. -/
def problems (settings : Settings.Validation) (d : Definition) : List Problem :=
  match structureProblems settings d with
  | [] => if settings.checkReachability then reachabilityProblems [] d.graph else []
  | ps => ps

end Validation

end StatesLang
