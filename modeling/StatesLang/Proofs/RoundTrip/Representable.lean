import StatesLang.Proofs.RoundTrip.Parsed.Parts

/-!
# Conditions that documents can hold

A condition can hold any comparison, but there are keys for some of them only.

* `Condition.Comparison.IsKeyed`, `Condition.IsKeyed`: what the keys can say.
* `Condition.Comparison.isLegal_iff_isKeyed`: the table of keys that are read has no others.
* **`Condition.reads_back_iff_isKeyed`**: such conditions read back, and no other condition ever
  comes out of a document.
-/

namespace StatesLang.Condition

/-- A comparison with a pattern is one with a literal text, and truth values are only compared for
equality. -/
def Comparison.IsKeyed (k : Comparison) : Prop :=
  (k.op = .wildcard → k.kind = .string ∧ k.toPath = false) ∧ (k.kind = .boolean → k.op = .eq)

/-- Every comparison of the condition, at any depth, is of this kind. -/
def IsKeyed (c : Condition) : Prop :=
  ∀ k ∈ c.comparisons, k.IsKeyed

theorem Comparison.isLegal_iff_isKeyed (k : Comparison) : k.isLegal = true ↔ k.IsKeyed := by
  obtain ⟨kind, op, toPath⟩ := k
  cases kind <;> cases op <;> cases toPath <;> simp [isLegal, IsKeyed]

theorem isKeyed_iff (c : Condition) : c.IsKeyed ↔ ∀ k ∈ c.comparisons, k.isLegal = true :=
  forall₂_congr fun k _ => k.isLegal_iff_isKeyed.symm

theorem isKeyed_of_ofJson {j : Json} {c : Condition} (h : ofJson j = .ok c) : c.IsKeyed :=
  c.isKeyed_iff.2 (ofJson_fits j c h).1

/-- **The conditions that documents can hold** read back as they were; these are the conditions that
come out of documents. The document of any other condition is refused for the key of one of its
comparisons. -/
theorem reads_back_iff_isKeyed (c : Condition) :
    (ofJson c.toJson = .ok c ↔ c.IsKeyed) ∧
      ((∃ j, ofJson j = .ok c) ↔ c.IsKeyed) ∧
      (¬ c.IsKeyed ↔
        ∃ k ∈ c.comparisons, ¬ k.IsKeyed ∧ ofJson c.toJson = .error (.unknownOperator k.key)) := by
  have hread : ofJson c.toJson = .ok c ↔ c.IsKeyed := by
    rw [ofJson_toJson, afterReading_eq_ok, c.isKeyed_iff]
  refine ⟨hread, ⟨fun ⟨j, hj⟩ => isKeyed_of_ofJson hj, fun h => ⟨c.toJson, hread.2 h⟩⟩, ?_⟩
  constructor
  · intro h
    rw [isKeyed_iff] at h
    obtain ⟨k, hk, hillegal, he⟩ := afterReading_eq_error (a := c) h
    refine ⟨k, hk, fun hkeyed => ?_, by rw [ofJson_toJson, he]⟩
    rw [k.isLegal_iff_isKeyed.2 hkeyed] at hillegal
    cases hillegal
  · rintro ⟨k, hk, hnot, -⟩ h
    exact hnot (h k hk)

end StatesLang.Condition
