import StatesLang.Proofs.WellFormed.Check

/-!
# Definitions without problems

What runs and readers need of a definition without problems follows from the rules that its graphs
and states keep.

* `State.names_of_mem_transitions`: a state refers to states of its graph only.
* `State.goes_on_of_wellFormed`: a state goes on, unless it is terminal or a choice.
* `Validation.wellFormed_of_problems`: every graph inside a definition without problems keeps the
  rules.
* `Validation.graphProblems_inside`, `contains_of_mem_transitions`, `goes_on`: the same said of
  single checks.
-/

namespace StatesLang

/-! ## States that keep the rules -/

namespace State

variable {limit : Nat} {g : Graph} {s : State}

theorem exit_wellFormed (h : s.WellFormed limit g) {e : Exit} (he : s.exit? = some e) :
    e.WellFormed g := by
  cases s with
  | choice _ | succeed _ | fail _ => cases he
  | task t => cases he; exact Task.WellFormed.exit h
  | pass p => cases he; exact Pass.WellFormed.exit h
  | wait w => cases he; exact Wait.WellFormed.exit h
  | parallel p _ => cases he; exact Parallel.WellFormed.exit h.2
  | map m _ => cases he; exact Each.WellFormed.exit h.2

theorem recovery_wellFormed (h : s.WellFormed limit g) : s.recovery.WellFormed g := by
  have hnone : Recovery.WellFormed g {} :=
    ⟨Validation.errorsWellFormed_nil, List.forall_mem_nil _, Validation.errorsWellFormed_nil,
      List.forall_mem_nil _⟩
  cases s with
  | pass _ | choice _ | wait _ | succeed _ | fail _ => exact hnone
  | task t => exact Task.WellFormed.recovery h
  | parallel p _ => exact Parallel.WellFormed.recovery h.2
  | map m _ => exact Each.WellFormed.recovery h.2

/-- **A state refers to states of its graph only.** -/
theorem names_of_mem_transitions (h : s.WellFormed limit g) {m : String}
    (hm : m ∈ s.transitions) : g.Names m := by
  simp only [transitions, List.mem_append, Option.mem_toList, List.mem_map] at hm
  obtain (hm | hm) | ⟨c, hc, rfl⟩ := hm
  · cases s with
    | choice c =>
      obtain hm | hm := List.mem_append.1 hm
      · obtain ⟨r, hr, rfl⟩ := List.mem_map.1 hm
        exact Choice.WellFormed.next h r hr
      · exact Choice.WellFormed.default h m (Option.mem_toList.1 hm)
    | _ => simp at hm
  · rw [next?, Option.bind_eq_some_iff] at hm
    obtain ⟨e, he, hm⟩ := hm
    exact (exit_wellFormed h he).next m hm
  · exact ((recovery_wellFormed h).catchers c hc).next

theorem Exit.WellFormed.next_or_end {e : Exit} (h : e.WellFormed g) :
    e.isEnd = true ∨ ∃ m, e.next = some m := by
  cases hnext : e.next with
  | none => exact .inl (h.one.1 hnext)
  | some m => exact .inr ⟨m, rfl⟩

/-- **A state goes on**, unless it is terminal or a choice; and a choice has rules. -/
theorem goes_on_of_wellFormed (h : s.WellFormed limit g) :
    s.isTerminal = true ∨ (∃ m, s.next? = some m) ∨ ∃ c, s = .choice c ∧ c.rules ≠ [] := by
  cases s with
  | succeed _ | fail _ => exact .inl rfl
  | choice c => exact .inr (.inr ⟨c, rfl, Choice.WellFormed.nonempty h⟩)
  | _ =>
    obtain he | ⟨m, hm⟩ := (exit_wellFormed h rfl).next_or_end
    · exact .inl he
    · exact .inr (.inl ⟨m, hm⟩)

end State

namespace Validation

variable {settings : Settings.Validation} {d : Definition} {g : Graph} {place : Place}
  {depth : Nat}

/-! ## Both passes -/

theorem problems_eq_nil_iff :
    problems settings d = [] ↔ structureProblems settings d = [] ∧
      (settings.checkReachability = true → reachabilityProblems [] d.graph = []) := by
  unfold problems
  split
  · next hs => simp [hs]
  · next hne => exact iff_of_false hne fun h => hne h.1

theorem graphProblems_of_problems (h : problems settings d = []) :
    graphProblems settings [] 0 d.graph = [] :=
  (List.append_eq_nil_iff.1 (problems_eq_nil_iff.1 h).1).2

/-- **Every graph inside a definition without problems keeps the rules.** -/
theorem wellFormed_of_problems (h : problems settings d = []) {path : Place}
    (hg : d.graph.Inside path g) : g.WellFormed settings.maxIntrinsicDepth :=
  ((structureProblems_eq_nil_iff_graphs.1 (problems_eq_nil_iff.1 h).1).2 path g hg).1

/-! ## Single checks -/

/-- The check of a graph without problems finds none in the graphs inside it either. -/
theorem graphProblems_inside {h : Graph} {path : Place}
    (hg : graphProblems settings place depth g = []) (hin : g.Inside path h) :
    ∃ depth', graphProblems settings (place ++ path) depth' h = [] := by
  induction hin generalizing place depth with
  | here g => exact ⟨depth, by rwa [List.append_nil]⟩
  | branch hs hb _ ih =>
    obtain ⟨depth', hd⟩ := ih ((graphProblems_eq_nil_step.1 hg).2 _ _ _ _ hs (.branch hb)).2
    exact ⟨depth', by simpa [Place.at] using hd⟩
  | iterator hs _ ih =>
    obtain ⟨depth', hd⟩ := ih ((graphProblems_eq_nil_step.1 hg).2 _ _ _ _ hs .iterator).2
    exact ⟨depth', by simpa [Place.at] using hd⟩

theorem contains_start (h : graphProblems settings place depth g = []) :
    g.contains g.startAt = true :=
  Graph.contains_iff.2 (graphProblems_eq_nil_step.1 h).1.start.2

theorem stateProblems_of_find (h : graphProblems settings place depth g = []) {name : String}
    {s : State} (hs : g.find? name = some s) :
    stateProblems settings g (place.at (.state name)) depth s = [] :=
  stateListProblems_eq_nil.1 (graphProblems_eq_nil.1 h).2.2 name s (Graph.mem_of_lookup hs)

theorem contains_of_mem_transitions {s : State}
    (h : stateProblems settings g place depth s = []) {m : String} (hm : m ∈ s.transitions) :
    g.contains m = true :=
  Graph.contains_iff.2 (State.names_of_mem_transitions (stateProblems_eq_nil.1 h).1 hm)

theorem goes_on {s : State} (h : stateProblems settings g place depth s = []) :
    s.isTerminal = true ∨ (∃ m, s.next? = some m) ∨ ∃ c, s = .choice c ∧ c.rules ≠ [] :=
  State.goes_on_of_wellFormed (stateProblems_eq_nil.1 h).1

end Validation

end StatesLang
