import StatesLang.Proofs.Reachability

/-!
# The course of a search

A search looks a name up among those met before. A new name it expands: it marks the name as a dead
end, searches from the targets of its state one after the other, and then notes the answer.
`Graph.Search` tells this course by rules, which put no bound on it, so that it is a result that
every search comes to an end.

* `Graph.Onward`: the transitions that searches follow.
* `Graph.Search`: a search that has ended, with the names that it expanded.
* `Graph.Expands`: what these names are among those met before and afterwards.
* `Graph.Explored.IsSound`: a terminal state is claimed only where there is a way to one.
* **`Graph.explore_expands_once`**: the search from a name ends, in one way only, and expands each
  name that it can come to exactly once.
-/

namespace StatesLang.Graph

open Relation (ReflTransGen)

variable {g : Graph}

/-! ## Transitions -/

/-- A transition that a search follows: one from a state that is not terminal. -/
def Onward (g : Graph) (n m : String) : Prop :=
  g.Edge n m ∧ ∃ s, g.find? n = some s ∧ s.isTerminal = false

theorem onward_iff {n m : String} : g.Onward n m ↔ ∃ s, g.find? n = some s ∧ m ∈ steps s := by
  constructor
  · rintro ⟨hedge, s, hs, ht⟩
    exact ⟨s, hs, (mem_steps hs ht).2 hedge⟩
  · rintro ⟨s, hs, hm⟩
    have ht : s.isTerminal = false := by
      by_contra h
      simp [steps, h] at hm
    exact ⟨(mem_steps hs ht).1 hm, s, hs, ht⟩

/-! ## Searches that have ended -/

/-- A search from some names, one after the other, that has ended: the names met before it, those
that it expanded, in that order, whether a terminal state was found, and the names met after it. -/
inductive Search (g : Graph) : List String → Explored → List String → Bool → Explored → Prop
  | done {seen} : Search g [] seen [] false seen
  /-- A name that was met before is not expanded again; what is known about it is the answer. -/
  | met {name rest seen answer names found after} (h : seen.lookup name = some answer)
      (hrest : Search g rest seen names found after) :
      Search g (name :: rest) seen names (answer || found) after
  /-- A new name without a state is a dead end. -/
  | missing {name rest seen names found after} (h : seen.lookup name = none)
      (hs : g.find? name = none) (hrest : Search g rest ((name, false) :: seen) names found after) :
      Search g (name :: rest) seen (name :: names) found after
  /-- A new name with a state: the search from all its targets comes before the answer. -/
  | state {name rest seen s inner answer between names found after} (h : seen.lookup name = none)
      (hs : g.find? name = some s)
      (hsteps : Search g (steps s) ((name, false) :: seen) inner answer between)
      (hrest : Search g rest ((name, s.isTerminal || answer) :: between) names found after) :
      Search g (name :: rest) seen (name :: (inner ++ names)) (s.isTerminal || answer || found)
        after

/-- **Every search ends**, as `exploreAll` computes it. -/
theorem exists_search (g : Graph) (targets : List String) (seen : Explored) :
    ∃ names, g.Search targets seen names (g.exploreAll targets seen).1.1
      (g.exploreAll targets seen).1.2 := by
  cases targets with
  | nil => rw [exploreAll_nil]; exact ⟨[], .done⟩
  | cons name rest =>
    have hle := (g.explore name seen).2
    obtain ⟨names, hrest⟩ := exists_search g rest (g.explore name seen).1.2
    rw [exploreAll_cons]
    rcases h : seen.lookup name with _ | answer
    · rcases hs : g.find? name with _ | s
      · rw [explore_of_missing h hs] at hrest ⊢
        exact ⟨name :: names, .missing h hs hrest⟩
      · have hlt := unexplored_cons_lt false hs h
        obtain ⟨inner, hsteps⟩ := exists_search g (steps s) ((name, false) :: seen)
        rw [explore_of_found h hs] at hrest ⊢
        exact ⟨name :: (inner ++ names), .state h hs hsteps hrest⟩
    · rw [explore_of_met h] at hrest ⊢
      exact ⟨names, .met h hrest⟩
termination_by (g.unexplored seen, targets.length)
decreasing_by
  · rcases Nat.lt_or_eq_of_le hle with h | h
    · exact Prod.Lex.left _ _ h
    · rw [h]; exact Prod.Lex.right _ (by simp)
  · exact Prod.Lex.left _ _ hlt

/-- **A search ends in one way only.** -/
theorem Search.unique {targets : List String} {seen after after' : Explored}
    {names names' : List String} {found found' : Bool}
    (h : g.Search targets seen names found after)
    (h' : g.Search targets seen names' found' after') :
    names = names' ∧ found = found' ∧ after = after' := by
  induction h generalizing names' found' after' with
  | done =>
    cases h'
    exact ⟨rfl, rfl, rfl⟩
  | met hmet _ ih =>
    cases h' with
    | met hmet' hrest' =>
      rw [hmet] at hmet'
      cases hmet'
      obtain ⟨rfl, rfl, rfl⟩ := ih hrest'
      exact ⟨rfl, rfl, rfl⟩
    | missing hnew' | state hnew' =>
      rw [hmet] at hnew'
      cases hnew'
  | missing hnew hs _ ih =>
    cases h' with
    | met hmet' =>
      rw [hnew] at hmet'
      cases hmet'
    | missing _ _ hrest' =>
      obtain ⟨rfl, rfl, rfl⟩ := ih hrest'
      exact ⟨rfl, rfl, rfl⟩
    | state _ hs' =>
      rw [hs] at hs'
      cases hs'
  | state hnew hs _ _ ihsteps ihrest =>
    cases h' with
    | met hmet' =>
      rw [hnew] at hmet'
      cases hmet'
    | missing _ hs' =>
      rw [hs] at hs'
      cases hs'
    | state _ hs' hsteps' hrest' =>
      rw [hs] at hs'
      cases hs'
      obtain ⟨rfl, rfl, rfl⟩ := ihsteps hsteps'
      obtain ⟨rfl, rfl, rfl⟩ := ihrest hrest'
      exact ⟨rfl, rfl, rfl⟩

/-! ## The names that a search expands -/

theorem lookup_cons_ne_none {name n : String} {b : Bool} {seen : Explored} :
    List.lookup n ((name, b) :: seen) ≠ none ↔ n = name ∨ seen.lookup n ≠ none := by
  by_cases hne : n = name
  · simp [hne]
  · simp [lookup_cons_ne hne, hne]

/-- Some new names, each of them once, turn the names met before into those met afterwards. -/
structure Expands (before : Explored) (names : List String) (after : Explored) : Prop where
  nodup : names.Nodup
  fresh : ∀ n ∈ names, before.lookup n = none
  met_iff : ∀ n, after.lookup n ≠ none ↔ before.lookup n ≠ none ∨ n ∈ names

namespace Expands

variable {a b c : Explored} {names names' : List String}

theorem refl (a : Explored) : Expands a [] a where
  nodup := .nil
  fresh := by simp
  met_iff := by simp

/-- One search after another: what the first one expands is met before the second one. -/
theorem trans (h₁ : Expands a names b) (h₂ : Expands b names' c) :
    Expands a (names ++ names') c where
  nodup := by
    refine List.nodup_append.2 ⟨h₁.nodup, h₂.nodup, ?_⟩
    rintro n hn _ hn' rfl
    exact (h₁.met_iff n).2 (.inr hn) (h₂.fresh n hn')
  fresh n hn := by
    rcases List.mem_append.1 hn with hn | hn
    · exact h₁.fresh n hn
    · by_contra h
      exact (h₁.met_iff n).2 (.inl h) (h₂.fresh n hn)
  met_iff n := by
    rw [h₂.met_iff, h₁.met_iff, List.mem_append, or_assoc]

theorem mark {name : String} (hnew : a.lookup name = none) :
    Expands a [name] ((name, false) :: a) where
  nodup := List.nodup_singleton name
  fresh n hn := by rwa [List.mem_singleton.1 hn]
  met_iff n := by rw [lookup_cons_ne_none, List.mem_singleton, or_comm]

theorem note (h : Expands a names b) {name : String} (hname : name ∈ names) (answer : Bool) :
    Expands a names ((name, answer) :: b) where
  nodup := h.nodup
  fresh := h.fresh
  met_iff n := by
    rw [lookup_cons_ne_none, h.met_iff, or_iff_right_iff_imp]
    rintro rfl
    exact .inr hname

end Expands

namespace Search

variable {targets : List String} {seen after : Explored} {names : List String} {found : Bool}

/-- **A search expands new names only**, each of them once, and meets no others. -/
theorem expands (h : g.Search targets seen names found after) : Expands seen names after := by
  induction h with
  | done => exact .refl _
  | met _ _ ih => exact ih
  | missing hnew _ _ ih => exact (Expands.mark hnew).trans ih
  | state hnew _ _ _ ihsteps ihrest =>
    exact (((Expands.mark hnew).trans ihsteps).note List.mem_cons_self _).trans ihrest

/-- **A search expands only names that it can come to.** -/
theorem onward (h : g.Search targets seen names found after) :
    ∀ n ∈ names, ∃ m ∈ targets, ReflTransGen g.Onward m n := by
  induction h with
  | done => simp
  | met _ _ ih => exact fun n hn => List.exists_mem_cons_of_exists (ih n hn)
  | missing _ _ _ ih =>
    intro n hn
    rcases List.mem_cons.1 hn with rfl | hn
    · exact List.exists_mem_cons_of _ .refl
    · exact List.exists_mem_cons_of_exists (ih n hn)
  | @state _ _ _ s _ _ _ _ _ _ _ hs _ _ ihsteps ihrest =>
    intro n hn
    rcases List.mem_cons.1 hn with rfl | hn
    · exact List.exists_mem_cons_of _ .refl
    rcases List.mem_append.1 hn with hn | hn
    · obtain ⟨m, hm, hway⟩ := ihsteps n hn
      exact List.exists_mem_cons_of _ (.head (onward_iff.2 ⟨s, hs, hm⟩) hway)
    · exact List.exists_mem_cons_of_exists (ihrest n hn)

end Search

/-! ## What a search claims -/

/-- A terminal state is claimed only where there is a way to one. This is about all entries, also
those behind a later entry of the same name. -/
def Explored.IsSound (g : Graph) (seen : Explored) : Prop :=
  ∀ n, (n, true) ∈ seen → g.ReachesTerminal n

namespace Explored

theorem mem_of_lookup_eq_some {n : String} {answer : Bool} {seen : Explored}
    (h : seen.lookup n = some answer) : (n, answer) ∈ seen := by
  obtain ⟨later, earlier, rfl, -⟩ := List.lookup_eq_some_iff.1 h
  exact List.mem_append_right _ List.mem_cons_self

theorem IsSound.cons {seen : Explored} (h : seen.IsSound g) {name : String} {answer : Bool}
    (hname : answer = true → g.ReachesTerminal name) :
    Explored.IsSound g ((name, answer) :: seen) := by
  intro n hn
  rcases List.mem_cons.1 hn with he | hn
  · cases he
    exact hname rfl
  · exact h n hn

end Explored

/-- **A search claims a terminal state only where there is a way to one**, if this holds of the
names met before it. -/
theorem Search.sound {targets : List String} {seen after : Explored} {names : List String}
    {found : Bool} (h : g.Search targets seen names found after) (hseen : seen.IsSound g) :
    after.IsSound g ∧ (found = true → ∃ m ∈ targets, g.ReachesTerminal m) := by
  induction h with
  | done => exact ⟨hseen, by simp⟩
  | @met name _ _ _ _ _ _ hmet _ ih =>
    obtain ⟨hafter, hfound⟩ := ih hseen
    refine ⟨hafter, fun h => ?_⟩
    rcases Bool.or_eq_true_iff.1 h with h | h
    · exact List.exists_mem_cons_of _ (hseen name (Explored.mem_of_lookup_eq_some (h ▸ hmet)))
    · exact List.exists_mem_cons_of_exists (hfound h)
  | missing _ _ _ ih =>
    obtain ⟨hafter, hfound⟩ := ih (hseen.cons (by simp))
    exact ⟨hafter, fun h => List.exists_mem_cons_of_exists (hfound h)⟩
  | @state name _ _ s _ answer _ _ _ _ _ hs _ _ ihsteps ihrest =>
    obtain ⟨hbetween, hanswer⟩ := ihsteps (hseen.cons (by simp))
    have hname : (s.isTerminal || answer) = true → g.ReachesTerminal name := by
      intro h
      rcases ht : s.isTerminal with _ | _
      · rw [ht, Bool.false_or] at h
        obtain ⟨m, hm, hway⟩ := hanswer h
        exact .of_edge ((mem_steps hs ht).1 hm) hway
      · exact ⟨name, s, .refl, hs, ht⟩
    obtain ⟨hafter, hfound⟩ := ihrest (hbetween.cons hname)
    refine ⟨hafter, fun h => ?_⟩
    rcases Bool.or_eq_true_iff.1 h with h | h
    · exact List.exists_mem_cons_of _ (hname h)
    · exact List.exists_mem_cons_of_exists (hfound h)

/-! ## The search from a name -/

theorem search_start_iff (g : Graph) (start : String) : ∃ expanded : List String,
    ∀ names found after, g.Search [start] [] names found after ↔
      names = expanded ∧ (found, after) = (g.explore start []).1 := by
  obtain ⟨expanded, h⟩ := exists_search g [start] []
  rw [exploreAll_cons, exploreAll_nil, Bool.or_false] at h
  refine ⟨expanded, fun names found after => ⟨fun h' => ?_, ?_⟩⟩
  · obtain ⟨rfl, rfl, rfl⟩ := h'.unique h
    exact ⟨rfl, rfl⟩
  · rintro ⟨rfl, he⟩
    rw [← he] at h
    exact h

/-- **The search from a name ends**, in one way only, which is the way of `explore`. It expands no
name twice, and it expands the names that it can come to; these are the names met at its end. Names
for which a terminal state is claimed lead to one, at the end and at every moment before it: entries
are only put in front, so that the names met at such a moment are an end of the list. -/
theorem explore_expands_once (g : Graph) (start : String) :
    ∃ expanded : List String,
      (∀ names found after, g.Search [start] [] names found after ↔
        names = expanded ∧ (found, after) = (g.explore start []).1) ∧
      expanded.Nodup ∧
      (∀ n, n ∈ expanded ↔ ReflTransGen g.Onward start n) ∧
      (∀ n, (g.explore start []).1.2.lookup n ≠ none ↔ ReflTransGen g.Onward start n) ∧
      ∀ seen, seen <:+ (g.explore start []).1.2 →
        ∀ n, seen.lookup n = some true → g.ReachesTerminal n := by
  obtain ⟨expanded, hiff⟩ := search_start_iff g start
  have hsearch := (hiff expanded _ _).2 ⟨rfl, rfl⟩
  obtain ⟨hsweep, hstart⟩ := explore_sweep g start []
  have hmet : ∀ n, (g.explore start []).1.2.lookup n ≠ none ↔ n ∈ expanded := fun n => by
    simpa using hsearch.expands.met_iff n
  have hexpanded : ∀ n, n ∈ expanded ↔ ReflTransGen g.Onward start n := by
    refine fun n => ⟨fun hn => ?_, fun hway => ?_⟩
    · simpa using hsearch.onward n hn
    · induction hway with
      | refl => exact (hmet start).1 (by simp [hstart])
      | @tail n m _ hedge ih =>
        obtain ⟨s, hs, hm⟩ := onward_iff.1 hedge
        exact (hmet m).1 (hsweep.closed n s m rfl ((hmet n).2 ih) hs hm)
  refine ⟨expanded, hiff, hsearch.expands.nodup, hexpanded, fun n => (hmet n).trans (hexpanded n),
    fun seen hseen n hn => ?_⟩
  have hsound := (hsearch.sound (by simp [Explored.IsSound])).1
  exact hsound n (hseen.subset (Explored.mem_of_lookup_eq_some hn))

/-- A choice between itself, a name without a state, the end, and a state that only leads back. -/
def tangledChoice : State.Choice where
  rules := [⟨.test "$.again" .isPresent true, "Pick", none⟩,
            ⟨.test "$.lost" .isPresent true, "Nowhere", none⟩,
            ⟨.test "$.done" .isPresent true, "Leave", none⟩]
  default := some "Back"

/-- The graph of this choice. -/
def tangled : Graph :=
  ⟨none, "Pick", [("Pick", .choice tangledChoice),
    ("Back", .pass { exit := ⟨some "Pick", false⟩ }), ("Leave", .succeed {})]⟩

theorem tangled_search : tangled.Search ["Pick"] [] ["Pick", "Back", "Nowhere", "Leave"] true
    [("Pick", true), ("Leave", true), ("Leave", false), ("Nowhere", false), ("Back", false),
      ("Back", false), ("Pick", false)] := by
  have hpick : tangled.find? "Pick" = some (.choice tangledChoice) := rfl
  have hback : tangled.find? "Back" = some (.pass { exit := ⟨some "Pick", false⟩ }) := rfl
  have hleave : tangled.find? "Leave" = some (.succeed {}) := rfl
  have hmarked : List.lookup "Pick" [("Back", false), ("Pick", false)] = some false := rfl
  have hmet : List.lookup "Pick" [("Back", false), ("Back", false), ("Pick", false)] = some false :=
    rfl
  exact .state rfl hpick (.state rfl hback (.met hmarked .done)
    (.met hmet (.missing rfl rfl (.state rfl hleave .done .done)))) .done

/-- The state that only leads back is a dead end for the search, as the choice is not finished when
it is met. The choice leads to the end, and is known to do so. -/
theorem tangled_explored :
    (tangled.explore "Pick" []).1.2.lookup "Back" = some false ∧
      ReflTransGen tangled.Onward "Pick" "Nowhere" ∧
      (tangled.explore "Pick" []).1.2.lookup "Pick" = some true ∧
      tangled.ReachesTerminal "Pick" := by
  obtain ⟨_, hsearch, -, hexpanded, -, hsound⟩ := explore_expands_once tangled "Pick"
  obtain ⟨rfl, hresult⟩ := (hsearch _ _ _).1 tangled_search
  rw [← hresult] at hsound ⊢
  exact ⟨rfl, (hexpanded "Nowhere").1 (by simp), rfl, hsound _ List.suffix_rfl "Pick" rfl⟩

end StatesLang.Graph
