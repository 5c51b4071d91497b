import Mathlib
import StatesLang.Proofs.RoundTrip.Condition
import StatesLang.Proofs.Structure

/-!
# Conditions of accepted definitions

The check of a definition and the reader of documents each have a notion of the comparisons that may
be made, and the reader's is the narrower one.

* `Validation.not_wildcard_of_toPath`: the comparisons that the check refuses.
* `Validation.conditionProblems_inside`: the check reaches every rule.
* **`Validation.rule_reads_back_iff`**: the conditions of an accepted definition that read back.
* `Validation.exists_accepted_unread`: not all of them do.
-/

namespace StatesLang

namespace Validation

variable {settings : Settings.Validation} {place : Place}

mutual

/-- The only comparison that the check of a condition refuses is that with a pattern at a path. -/
theorem not_wildcard_of_toPath :
    (c : Condition) → conditionProblems place c = [] →
      ∀ k ∈ c.comparisons, k.toPath = true → k.op ≠ .wildcard
  | .compare _ op expected, _, k, hk, ht => by
    rw [Condition.comparisons, List.mem_singleton] at hk
    rw [hk] at ht
    cases ht
  | .comparePath _ op kind _, h, k, hk, _ => by
    rw [Condition.comparisons, List.mem_singleton] at hk
    simp only [conditionProblems, List.append_eq_nil_iff, problemIf_eq_nil] at h
    rw [hk]
    exact h.1.2
  | .test .., _, k, hk, _ => absurd hk List.not_mem_nil
  | .and children, h, k, hk, ht => by
    rw [conditionProblems, List.append_eq_nil_iff] at h
    exact not_wildcard_of_toPath_list children h.2 k hk ht
  | .or children, h, k, hk, ht => by
    rw [conditionProblems, List.append_eq_nil_iff] at h
    exact not_wildcard_of_toPath_list children h.2 k hk ht
  | .not child, h, k, hk, ht => not_wildcard_of_toPath child h k hk ht

theorem not_wildcard_of_toPath_list :
    (cs : List Condition) → conditionListProblems place cs = [] →
      ∀ k ∈ Condition.comparisonsList cs, k.toPath = true → k.op ≠ .wildcard
  | [], _, k, hk, _ => absurd hk List.not_mem_nil
  | c :: cs, h, k, hk, ht => by
    rw [conditionListProblems, List.append_eq_nil_iff] at h
    rw [Condition.comparisonsList, List.mem_append] at hk
    rcases hk with hk | hk
    · exact not_wildcard_of_toPath c h.1 k hk ht
    · exact not_wildcard_of_toPath_list cs h.2 k hk ht

end

theorem conditionProblems_inside {d : Definition} (hd : problems settings d = []) {path : Place}
    {g : Graph} (hg : d.graph.Inside path g) {name : String} {c : State.Choice}
    (hc : (name, State.choice c) ∈ g.states) {r : ChoiceRule} (hr : r ∈ c.rules) :
    ∃ here, conditionProblems here r.condition = [] := by
  have hchoice : c.WellFormed g := (wellFormed_of_problems hd hg).state name _ hc
  exact ⟨[], (conditionProblems_eq_nil _).2 (hchoice.condition r hr)⟩

end Validation

/-- Where the check and the reader part. -/
theorem Condition.Comparison.isLegal_iff {k : Condition.Comparison}
    (h : k.toPath = true → k.op ≠ .wildcard) :
    k.isLegal = true ↔
      (k.op = .wildcard → k.kind = .string) ∧ (k.kind = .boolean → k.op = .eq) := by
  obtain ⟨kind, op, toPath⟩ := k
  cases toPath <;> cases kind <;> cases op <;> simp_all [Condition.Comparison.isLegal]

namespace Validation

variable {settings : Settings.Validation}

/-- **The conditions of an accepted definition that read back** are those that compare with a
pattern as texts only and truth values for equality only. Any other is refused for the key of such a
comparison. -/
theorem rule_reads_back_iff {d : Definition} (hd : problems settings d = []) {path : Place}
    {g : Graph} (hg : d.graph.Inside path g) {name : String} {c : State.Choice}
    (hc : (name, State.choice c) ∈ g.states) {r : ChoiceRule} (hr : r ∈ c.rules) :
    (Condition.ofJson r.condition.toJson = .ok r.condition ↔
      ∀ k ∈ r.condition.comparisons,
        (k.op = .wildcard → k.kind = .string) ∧ (k.kind = .boolean → k.op = .eq)) ∧
      (Condition.ofJson r.condition.toJson ≠ .ok r.condition →
        ∃ k ∈ r.condition.comparisons,
          ((k.op = .wildcard ∧ k.kind ≠ .string) ∨ (k.kind = .boolean ∧ k.op ≠ .eq)) ∧
          Condition.ofJson r.condition.toJson = .error (.unknownOperator k.key)) := by
  obtain ⟨here, hp⟩ := conditionProblems_inside hd hg hc hr
  have hlegal : ∀ k ∈ r.condition.comparisons, (k.isLegal = true ↔
      (k.op = .wildcard → k.kind = .string) ∧ (k.kind = .boolean → k.op = .eq)) :=
    fun k hk => Condition.Comparison.isLegal_iff (not_wildcard_of_toPath _ hp k hk)
  rw [Condition.ofJson_toJson, Ne, Condition.afterReading_eq_ok]
  refine ⟨forall₂_congr hlegal, fun h => ?_⟩
  obtain ⟨k, hk, hkl, he⟩ := Condition.afterReading_eq_error (a := r.condition) h
  refine ⟨k, hk, ?_, he⟩
  have hnot := mt (hlegal k hk).2 (by simp [hkl])
  by_cases hw : k.op = .wildcard ∧ k.kind ≠ .string
  · exact Or.inl hw
  · refine Or.inr (Decidable.byContradiction fun hb => hnot ⟨fun h => ?_, fun h => ?_⟩)
    · exact Decidable.byContradiction fun hk => hw ⟨h, hk⟩
    · exact Decidable.byContradiction fun hk => hb ⟨h, hk⟩

/-- A rule for texts with an ending, where a truth value is not set. -/
def endingRule : ChoiceRule :=
  ⟨.and [.compare "$.name" .wildcard (.string "*.log"),
    .not (.compare "$.old" .eq (.boolean true))], "Keep", none⟩

/-- A choice inside a map. -/
def sifting : Definition where
  graph := ⟨none, "Each", [("Each", .map { exit := ⟨none, true⟩ } (some ⟨none, "Sift",
    [("Keep", .succeed {}),
      ("Sift", .choice { rules := [endingRule], default := some "Keep" })]⟩))]⟩

theorem endingRule_reads_back :
    Condition.ofJson endingRule.condition.toJson = .ok endingRule.condition := by
  have hd : problems {} sifting = [] := by cbv
  refine (rule_reads_back_iff hd (.iterator (.head _) (.here _)) (.tail _ (.head _))
    (.head _)).1.2 fun k hk => ?_
  have hk : k ∈ [⟨.string, .wildcard, false⟩, ⟨.boolean, .eq, false⟩] := hk
  rcases List.mem_cons.1 hk with rfl | hk
  · decide
  · rw [List.mem_singleton.1 hk]
    decide

/-- A choice whose rule matches a number against a pattern. -/
def numberPattern : Definition where
  graph := ⟨none, "Sift", [("Keep", .succeed {}), ("Sift", .choice { rules :=
    [⟨.compare "$.size" .wildcard (.numeric (.int ⟨1, by decide⟩)), "Keep", none⟩] })]⟩

/-- **Not every condition of an accepted definition reads back.** -/
theorem exists_accepted_unread :
    problems {} numberPattern = [] ∧
      ∃ c r, ("Sift", State.choice c) ∈ numberPattern.graph.states ∧ r ∈ c.rules ∧
        Condition.ofJson r.condition.toJson = .error (.unknownOperator "NumericMatches") :=
  ⟨by cbv, _, _, .tail _ (.head _), .head _, by rw [Condition.ofJson_toJson]; rfl⟩

end Validation

end StatesLang
