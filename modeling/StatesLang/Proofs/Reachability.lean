import Mathlib
import StatesLang.Proofs.Nesting
import StatesLang.Validation.Reachability

/-!
# The search for a terminal state

* `Graph.Edge`: the transitions of a graph without those of catchers; `Graph.ReachesTerminal`: a
  terminal state lies behind a name.
* `Graph.Sweep`: what a search adds to the names met before it. `explore_sweep` and
  `exploreAll_sweep` show it of both searches.
* **`Graph.reachesTerminal_iff`**: the search from the start is exact, although a name whose search
  is not over counts as a dead end.
* **`Validation.problems_of_sound_structure`**: behind a sound structure, validation reports the
  graphs without a way to a terminal state, each once, and nothing else.
-/

namespace StatesLang

namespace Graph

open Relation (ReflTransGen)

/-! ## Ways through a graph -/

/-- One transition, of a state with one way out or of a choice. -/
inductive Edge (g : Graph) : String → String → Prop
  | next {n m : String} {s : State} (hs : g.find? n = some s) (hm : s.next? = some m) : Edge g n m
  | rule {n : String} {c : State.Choice} {r : ChoiceRule} (hs : g.find? n = some (.choice c))
      (hr : r ∈ c.rules) : Edge g n r.next
  | default {n m : String} {c : State.Choice} (hs : g.find? n = some (.choice c))
      (hm : c.default = some m) : Edge g n m

/-- From a name on, some transitions lead to a terminal state. -/
def ReachesTerminal (g : Graph) (name : String) : Prop :=
  ∃ n s, ReflTransGen g.Edge name n ∧ g.find? n = some s ∧ s.isTerminal = true

/-- There is a way from the start to a terminal state. -/
def HasTerminalPath (g : Graph) : Prop :=
  g.ReachesTerminal g.startAt

theorem ReachesTerminal.of_edge {g : Graph} {n m : String} (he : g.Edge n m)
    (hm : g.ReachesTerminal m) : g.ReachesTerminal n := by
  obtain ⟨k, s, hk, hs, ht⟩ := hm
  exact ⟨k, s, .head he hk, hs, ht⟩

theorem mem_steps {g : Graph} {n m : String} {s : State} (hs : g.find? n = some s)
    (ht : s.isTerminal = false) : m ∈ steps s ↔ g.Edge n m := by
  constructor
  · intro hm
    cases s with
    | choice c =>
      simp only [steps, ht, Bool.false_eq_true, if_false, List.mem_append, Option.mem_toList,
        List.mem_map] at hm
      rcases hm with hm | ⟨r, hr, rfl⟩
      · exact .default hs hm
      · exact .rule hs hr
    | _ =>
      simp only [steps, ht, Bool.false_eq_true, if_false, Option.mem_toList] at hm
      exact .next hs hm
  · intro he
    cases he with
    | next hs' hm =>
      rw [hs] at hs'
      cases hs'
      cases s with
      | choice c => simp [State.next?, State.exit?] at hm
      | _ => simp [steps, ht, hm]
    | rule hs' hr =>
      rw [hs] at hs'
      cases hs'
      simp only [steps, ht, Bool.false_eq_true, if_false, List.mem_append, List.mem_map]
      exact Or.inr ⟨_, hr, rfl⟩
    | default hs' hm =>
      rw [hs] at hs'
      cases hs'
      simp [steps, ht, hm]

/-! ## One search -/

theorem explore_of_met {g : Graph} {name : String} {seen : Explored} {answer : Bool}
    (h : seen.lookup name = some answer) : (g.explore name seen).1 = (answer, seen) := by
  rw [explore]
  split
  · next a ha => rw [h] at ha; cases ha; rfl
  · next ha => rw [h] at ha; cases ha

theorem explore_of_missing {g : Graph} {name : String} {seen : Explored}
    (h : seen.lookup name = none) (hs : g.find? name = none) :
    (g.explore name seen).1 = (false, (name, false) :: seen) := by
  rw [explore]
  split
  · next a ha => rw [h] at ha; cases ha
  · split
    · rfl
    · next s hs' => rw [hs] at hs'; cases hs'

/-- A state that was not met yet: the search of its targets, in which it is a dead end, comes
first. -/
theorem explore_of_found {g : Graph} {name : String} {seen : Explored} {s : State}
    (h : seen.lookup name = none) (hs : g.find? name = some s) :
    (g.explore name seen).1 =
      ((s.isTerminal || (g.exploreAll (steps s) ((name, false) :: seen)).1.1),
        (name, s.isTerminal || (g.exploreAll (steps s) ((name, false) :: seen)).1.1) ::
          (g.exploreAll (steps s) ((name, false) :: seen)).1.2) := by
  rw [explore]
  split
  · next a ha => rw [h] at ha; cases ha
  · split
    · next hs' => rw [hs] at hs'; cases hs'
    · next s' hs' => rw [hs] at hs'; cases hs'; rfl

theorem exploreAll_nil (g : Graph) (seen : Explored) :
    (g.exploreAll [] seen).1 = (false, seen) := by
  rw [exploreAll]

theorem exploreAll_cons (g : Graph) (name : String) (rest : List String) (seen : Explored) :
    (g.exploreAll (name :: rest) seen).1 =
      (((g.explore name seen).1.1 || (g.exploreAll rest (g.explore name seen).1.2).1.1),
        (g.exploreAll rest (g.explore name seen).1.2).1.2) := by
  rw [exploreAll]

/-! ## What a search adds -/

/-- What a search with an answer makes of the names met before it. The names that it adds are
finished: all their targets were met, and terminal ones are known as such. One true entry among them
is enough for the answer. -/
structure Sweep (g : Graph) (before after : Explored) (answer : Bool) : Prop where
  keeps : ∀ n b, before.lookup n = some b → after.lookup n = some b
  answers : ∀ n, before.lookup n = none → after.lookup n = some true → answer = true
  closed : ∀ n s m, before.lookup n = none → after.lookup n ≠ none → g.find? n = some s →
    m ∈ steps s → after.lookup m ≠ none
  terminal : ∀ n s, before.lookup n = none → after.lookup n ≠ none → g.find? n = some s →
    s.isTerminal = true → after.lookup n = some true
  sound : (∀ n, before.lookup n = some true → g.ReachesTerminal n) →
    ∀ n, after.lookup n = some true → g.ReachesTerminal n

namespace Sweep

variable {g : Graph} {a b c : Explored} {x y : Bool}

theorem mono (h : g.Sweep a b x) {n : String} (hn : a.lookup n ≠ none) : b.lookup n ≠ none := by
  obtain ⟨v, hv⟩ := Option.ne_none_iff_exists'.1 hn
  rw [h.keeps n v hv]
  exact Option.some_ne_none v

theorem refl (g : Graph) (a : Explored) (x : Bool) : g.Sweep a a x where
  keeps _ _ h := h
  answers n h h' := by rw [h] at h'; cases h'
  closed n _ _ h h' := absurd h h'
  terminal n _ h h' := absurd h h'
  sound h := h

theorem trans (h₁ : g.Sweep a b x) (h₂ : g.Sweep b c y) : g.Sweep a c (x || y) where
  keeps n v h := h₂.keeps n v (h₁.keeps n v h)
  answers n ha hc := by
    rcases hb : b.lookup n with _ | v
    · rw [h₂.answers n hb hc, Bool.or_true]
    · have : v = true := by simpa [h₂.keeps n v hb] using hc
      rw [h₁.answers n ha (by rw [hb, this]), Bool.true_or]
  closed n s m ha hc hs hm := by
    rcases hb : b.lookup n with _ | v
    · exact h₂.closed n s m hb hc hs hm
    · exact h₂.mono (h₁.closed n s m ha (by simp [hb]) hs hm)
  terminal n s ha hc hs ht := by
    rcases hb : b.lookup n with _ | v
    · exact h₂.terminal n s hb hc hs ht
    · exact h₂.keeps n true (h₁.terminal n s ha (by simp [hb]) hs ht)
  sound h := h₂.sound (h₁.sound h)

end Sweep

theorem lookup_cons_ne {n name : String} (hne : n ≠ name) (b : Bool) (seen : Explored) :
    List.lookup n ((name, b) :: seen) = seen.lookup n := by
  simp [List.lookup_cons, beq_false_of_ne hne]

theorem sweep_missing {g : Graph} {name : String} {seen : Explored}
    (h : seen.lookup name = none) (hs : g.find? name = none) :
    g.Sweep seen ((name, false) :: seen) false where
  keeps n b hn := by
    have hne : n ≠ name := fun e => by rw [e, h] at hn; cases hn
    rwa [lookup_cons_ne hne]
  answers n hn hn' := by
    by_cases hne : n = name
    · simp [hne] at hn'
    · rw [lookup_cons_ne hne, hn] at hn'; cases hn'
  closed n s m hn hn' hs' := by
    by_cases hne : n = name
    · rw [hne, hs] at hs'; cases hs'
    · rw [lookup_cons_ne hne] at hn'; exact absurd hn hn'
  terminal n s hn hn' hs' := by
    by_cases hne : n = name
    · rw [hne, hs] at hs'; cases hs'
    · rw [lookup_cons_ne hne] at hn'; exact absurd hn hn'
  sound hb n hn := by
    by_cases hne : n = name
    · simp [hne] at hn
    · exact hb n (by rwa [lookup_cons_ne hne] at hn)

/-- Closing the search of a state: its own entry is settled once all its targets are. -/
theorem Sweep.close {g : Graph} {name : String} {seen after : Explored} {s : State} {x : Bool}
    (h : g.Sweep ((name, false) :: seen) after x) (hn : seen.lookup name = none)
    (hs : g.find? name = some s) (hmet : ∀ m ∈ steps s, after.lookup m ≠ none)
    (hfound : x = true → ∃ m ∈ steps s, after.lookup m = some true) :
    g.Sweep seen ((name, s.isTerminal || x) :: after) (s.isTerminal || x) := by
  have hback : ∀ n, n ≠ name → seen.lookup n = none →
      List.lookup n ((name, false) :: seen) = none := fun n hne hn => by
    rwa [lookup_cons_ne hne]
  refine ⟨fun n b hb => ?_, fun n hb ha => ?_, fun n t m hb ha ht hm => ?_,
    fun n t hb ha ht htt => ?_, fun hb n ha => ?_⟩
  · have hne : n ≠ name := fun e => by rw [e, hn] at hb; cases hb
    rw [lookup_cons_ne hne]
    exact h.keeps n b (by rwa [lookup_cons_ne hne])
  · by_cases hne : n = name
    · simpa [hne] using ha
    · rw [lookup_cons_ne hne] at ha
      rw [h.answers n (hback n hne hb) ha, Bool.or_true]
  · have hm' : after.lookup m ≠ none := by
      by_cases hne : n = name
      · rw [hne, hs] at ht; cases ht; exact hmet m hm
      · rw [lookup_cons_ne hne] at ha
        exact h.closed n t m (hback n hne hb) ha ht hm
    by_cases hne : m = name
    · simp [hne]
    · rwa [lookup_cons_ne hne]
  · by_cases hne : n = name
    · rw [hne, hs] at ht; cases ht; simp [hne, htt]
    · rw [lookup_cons_ne hne] at ha ⊢
      exact h.terminal n t (hback n hne hb) ha ht htt
  · have hsound := h.sound fun k hk => by
      by_cases hne : k = name
      · simp [hne] at hk
      · exact hb k (by rwa [lookup_cons_ne hne] at hk)
    by_cases hne : n = name
    · rcases ht : s.isTerminal with _ | _
      · have hx : x = true := by simpa [hne, ht] using ha
        obtain ⟨m, hm, hmt⟩ := hfound hx
        rw [hne]
        exact .of_edge ((mem_steps hs ht).1 hm) (hsound m hmt)
      · exact ⟨n, s, .refl, by rw [hne, hs], ht⟩
    · exact hsound n (by rwa [lookup_cons_ne hne] at ha)

mutual

/-- **A search from a name** settles that name. -/
theorem explore_sweep (g : Graph) (name : String) (seen : Explored) :
    g.Sweep seen (g.explore name seen).1.2 (g.explore name seen).1.1 ∧
      (g.explore name seen).1.2.lookup name = some (g.explore name seen).1.1 := by
  rcases h : seen.lookup name with _ | answer
  · rcases hs : g.find? name with _ | s
    · rw [explore_of_missing h hs]
      exact ⟨sweep_missing h hs, by simp⟩
    · have hlt := unexplored_cons_lt false hs h
      obtain ⟨hsweep, hmet, hfound⟩ := exploreAll_sweep g (steps s) ((name, false) :: seen)
      rw [explore_of_found h hs]
      exact ⟨hsweep.close h hs hmet hfound, by simp⟩
  · rw [explore_of_met h]
    exact ⟨.refl g seen answer, h⟩
termination_by (g.unexplored seen, 0)

/-- **A search from several names** meets them all. -/
theorem exploreAll_sweep (g : Graph) (names : List String) (seen : Explored) :
    g.Sweep seen (g.exploreAll names seen).1.2 (g.exploreAll names seen).1.1 ∧
      (∀ n ∈ names, (g.exploreAll names seen).1.2.lookup n ≠ none) ∧
      ((g.exploreAll names seen).1.1 = true →
        ∃ n ∈ names, (g.exploreAll names seen).1.2.lookup n = some true) := by
  match names with
  | [] => rw [exploreAll_nil]; exact ⟨.refl g seen false, by simp, by simp⟩
  | name :: rest =>
    have hle := (g.explore name seen).2
    obtain ⟨h₁, hname⟩ := explore_sweep g name seen
    obtain ⟨h₂, hmet, hfound⟩ := exploreAll_sweep g rest (g.explore name seen).1.2
    rw [exploreAll_cons]
    refine ⟨h₁.trans h₂, fun n hn => ?_, fun ht => ?_⟩
    · rcases List.mem_cons.1 hn with rfl | hn
      · exact h₂.mono (by simp [hname])
      · exact hmet n hn
    · rcases Bool.or_eq_true_iff.1 ht with ht | ht
      · exact ⟨name, List.mem_cons_self, h₂.keeps name true (by rw [hname, ht])⟩
      · obtain ⟨n, hn, hnt⟩ := hfound ht
        exact ⟨n, List.mem_cons_of_mem _ hn, hnt⟩
termination_by (g.unexplored seen, names.length + 1)
decreasing_by
  · exact Prod.Lex.right _ (by omega)
  · rcases Nat.lt_or_eq_of_le hle with h | h
    · exact Prod.Lex.left _ _ h
    · rw [h]; exact Prod.Lex.right _ (by simp)

end

/-! ## The search from the start -/

/-- **The search is exact**: it finds a terminal state if and only if there is a way to one. -/
theorem reachesTerminal_iff (g : Graph) : g.reachesTerminal = true ↔ g.HasTerminalPath := by
  obtain ⟨hsweep, hstart⟩ := explore_sweep g g.startAt []
  rw [reachesTerminal]
  constructor
  · intro h
    exact hsweep.sound (by simp) g.startAt (by rw [hstart, h])
  · rintro ⟨n, s, hway, hs, ht⟩
    -- along the way, every name is met unless a terminal state was found before
    have hmet : ∀ m, ReflTransGen g.Edge g.startAt m →
        (g.explore g.startAt []).1.1 = true ∨ (g.explore g.startAt []).1.2.lookup m ≠ none := by
      intro m hm
      induction hm with
      | refl => exact Or.inr (by simp [hstart])
      | @tail k m _ he ih =>
        rcases ih with ih | ih
        · exact Or.inl ih
        · obtain ⟨t, hk⟩ : ∃ t, g.find? k = some t := by cases he <;> exact ⟨_, ‹_›⟩
          rcases htt : t.isTerminal with _ | _
          · exact Or.inr (hsweep.closed k t m rfl ih hk ((mem_steps hk htt).2 he))
          · exact Or.inl (hsweep.answers k rfl (hsweep.terminal k t rfl ih hk htt))
    rcases hmet n hway with h | h
    · exact h
    · exact hsweep.answers n rfl (hsweep.terminal n s rfl h hs ht)

instance (g : Graph) : Decidable g.HasTerminalPath :=
  decidable_of_iff _ g.reachesTerminal_iff

end Graph

namespace Validation

open StatesLang.Graph (located locatedInStates locatedInState locatedInBranches)

/-! ## All graphs of a definition -/

/-- The problems of the graphs without a way to a terminal state, among located graphs. -/
def deadEnds (graphs : List (Place × Graph)) : List Problem :=
  (graphs.filter fun p => ¬ p.2.HasTerminalPath).map fun p => ⟨p.1, .noTerminal⟩

theorem deadEnds_append (ps qs : List (Place × Graph)) :
    deadEnds (ps ++ qs) = deadEnds ps ++ deadEnds qs := by
  simp [deadEnds]

mutual

theorem reachabilityProblems_eq (place : Place) : ∀ g : Graph,
    reachabilityProblems place g = deadEnds (g.located place)
  | ⟨comment, startAt, states⟩ => by
    rw [reachabilityProblems, located, innerReachability_eq place states]
    by_cases h : Graph.HasTerminalPath ⟨comment, startAt, states⟩
    · simp [deadEnds, (Graph.reachesTerminal_iff _).2 h, h]
    · have h' := mt (Graph.reachesTerminal_iff _).1 h
      simp [deadEnds, h', h]

theorem innerReachability_eq (place : Place) : ∀ states : List (String × State),
    innerReachability place states = deadEnds (locatedInStates place states)
  | [] => by simp [innerReachability, locatedInStates, deadEnds]
  | (name, .parallel p branches) :: rest => by
    rw [innerReachability, locatedInStates, locatedInState, deadEnds_append,
      branchReachability_eq _ 0 branches, innerReachability_eq place rest]
  | (name, .map m (some iterator)) :: rest => by
    rw [innerReachability, locatedInStates, locatedInState, deadEnds_append,
      reachabilityProblems_eq _ iterator, innerReachability_eq place rest]
  | (name, .map m none) :: rest | (name, .task _) :: rest | (name, .pass _) :: rest
  | (name, .choice _) :: rest | (name, .wait _) :: rest | (name, .succeed _) :: rest
  | (name, .fail _) :: rest => by
    rw [innerReachability, locatedInStates, locatedInState, List.nil_append,
      innerReachability_eq place rest] <;> simp

theorem branchReachability_eq (place : Place) (index : Nat) : ∀ gs : List Graph,
    branchReachability place index gs = deadEnds (locatedInBranches place index gs)
  | [] => by simp [branchReachability, locatedInBranches, deadEnds]
  | g :: gs => by
    rw [branchReachability, locatedInBranches, deadEnds_append, reachabilityProblems_eq _ g,
      branchReachability_eq place (index + 1) gs]

end

/-- **Behind a sound structure, validation reports the dead ends**: one problem for each graph from
whose start no terminal state can be reached, a graph before those inside it, each under its own
place, and nothing else. So it reports nothing if and only if there is no such graph. -/
theorem problems_of_sound_structure {settings : Settings.Validation} {d : Definition}
    (hcheck : settings.checkReachability = true) (hs : structureProblems settings d = []) :
    problems settings d =
        ((d.graph.located []).filter fun p => ¬ p.2.HasTerminalPath).map
          (fun p => ⟨p.1, .noTerminal⟩) ∧
      Defect.message .noTerminal = "No path to a terminal state exists." ∧
      (problems settings d = [] ↔ ∀ path g, d.graph.Inside path g → g.HasTerminalPath) := by
  have heq : problems settings d = deadEnds (d.graph.located []) := by
    simp only [problems, hs, hcheck, if_true]
    exact reachabilityProblems_eq [] d.graph
  refine ⟨heq, rfl, ?_⟩
  rw [heq, deadEnds, List.map_eq_nil_iff, List.filter_eq_nil_iff]
  constructor
  · intro h path g hin
    have hway := h (path, g) (by simpa using hin.mem_located [])
    simpa using hway
  · intro h p hp
    obtain ⟨path, hin, _⟩ := Graph.mem_located.1 hp
    simpa using h path p.2 hin

/-- A choice that can lead back to itself before it ends, and a map whose own graph never does. -/
def looping : Definition where
  graph := ⟨none, "Again", [
    ("Again", .choice { rules := [⟨.test "$.more" .isPresent true, "Back", none⟩],
                        default := some "Each" }),
    ("Back", .pass { exit := ⟨some "Again", false⟩ }),
    ("Each", .map { exit := ⟨none, true⟩ } (some
      ⟨none, "Spin", [("Spin", .pass { exit := ⟨some "Spin", false⟩ })]⟩))]⟩

theorem looping_problems :
    problems {} looping = [⟨[.state "Each", .iterator], .noTerminal⟩] := by
  have hs : structureProblems {} looping = [] := by cbv
  rw [(problems_of_sound_structure rfl hs).1]
  cbv

end Validation

end StatesLang
