import Mathlib.Order.Defs.Unbundled
import StatesLang.Json.Combine
import StatesLang.Proofs.Comparison.Conditions

/-!
# Comparisons of integers

The integers that a number keeps as they are lie in two ranges of 64 bits, the signed and the
unsigned one. A comparison of two of them never depends on a rounding, so that operators and
equality by value say of them what they say of integers.

* `Json.Number.isLinearOrder_int`: the order of these integers is total.
* `Condition.Operator.Relates`: what an operator says of two integers.
* `Condition.eval_int_iff`: a comparison of two integers says just that.
* **`Condition.integers_compare_exactly`**: this of numbers, conditions and documents.
-/

namespace StatesLang

namespace Json

theorem Number.compare_int_ne_gt {m n : WideInt} :
    Number.compare (.int m) (.int n) ≠ .gt ↔ m.1 ≤ n.1 := by
  rw [compare_int, ne_eq, Int.compare_eq_gt, Int.not_lt]

/-- **The integers are totally ordered** by the comparison of numbers. -/
theorem Number.isLinearOrder_int :
    IsLinearOrder WideInt fun m n => Number.compare (.int m) (.int n) ≠ .gt where
  refl m := compare_int_ne_gt.2 (Int.le_refl m.1)
  trans _ _ _ hmn hnk := compare_int_ne_gt.2
    (Int.le_trans (compare_int_ne_gt.1 hmn) (compare_int_ne_gt.1 hnk))
  antisymm _ _ hmn hnm := Subtype.ext
    (Int.le_antisymm (compare_int_ne_gt.1 hmn) (compare_int_ne_gt.1 hnm))
  total m n := (Int.le_total m.1 n.1).imp compare_int_ne_gt.2 compare_int_ne_gt.2

theorem sameValue_int {m n : WideInt} :
    sameValue (.number (.int m)) (.number (.int n)) = true ↔ m = n := by
  rw [sameValue, beq_iff_eq, Number.compare_int_eq]

end Json

namespace Condition

/-- What an operator says of two integers. No integer matches a pattern. -/
def Operator.Relates : Operator → Int → Int → Prop
  | .eq, m, n => m = n
  | .gt, m, n => n < m
  | .gte, m, n => n ≤ m
  | .lt, m, n => m < n
  | .lte, m, n => m ≤ n
  | .wildcard, _, _ => False

theorem Operator.accepts_compare (op : Operator) (m n : Int) :
    op.accepts (Ord.compare m n) = true ↔ op.Relates m n := by
  cases op with
  | eq => rw [accepts, beq_iff_eq, Int.compare_eq_eq, Relates]
  | gt => rw [accepts, beq_iff_eq, Int.compare_eq_gt, Relates]
  | gte => rw [accepts, bne_iff_ne, ne_eq, Int.compare_eq_lt, Int.not_lt, Relates]
  | lt => rw [accepts, beq_iff_eq, Int.compare_eq_lt, Relates]
  | lte => rw [accepts, bne_iff_ne, ne_eq, Int.compare_eq_gt, Int.not_lt, Relates]
  | wildcard => simp [accepts, Relates]

instance (op : Operator) (m n : Int) : Decidable (op.Relates m n) :=
  decidable_of_iff _ (op.accepts_compare m n)

section Document

variable {document : Json} {path : String} {x : Expected} {m n : WideInt}

/-- **A comparison of two integers says of them what its operator says of integers**, whether the
second one is a literal or stands at a path itself. -/
theorem eval_int_iff (hm : resolve document path = some (.number (.int m)))
    (hn : x.literal? document = some (.numeric (.int n))) (op : Operator) :
    eval document (x.condition path op) = true ↔ op.Relates m.1 n.1 := by
  have hliteral : eval document (.compare path op (.numeric (.int n))) =
      op.accepts (Ord.compare m.1 n.1) := by
    simp only [eval, evalCompare, hm, holdsWith, Json.Number.compare_int]
  rw [← Operator.accepts_compare, ← hliteral]
  by_cases hop : op = .wildcard
  · cases x with
    | literal e =>
      cases hn
      rfl
    | path kind p =>
      rw [hliteral, hop, Expected.condition, eval_comparePath_wildcard]
      rfl
  · rw [eval_condition hop, hn, Option.any_some]

end Document

/-- **Integers compare exactly**, whatever their signs and sizes. The comparison of numbers has the
order of their values, which is a total one. Equality by value holds only of an integer and itself,
and a comparison in a condition is true just if its operator relates the two integers. -/
theorem integers_compare_exactly :
    (∀ m n : WideInt, Json.Number.compare (.int m) (.int n) = Ord.compare m.1 n.1) ∧
      IsLinearOrder WideInt (fun m n => Json.Number.compare (.int m) (.int n) ≠ .gt) ∧
      (∀ m n : WideInt,
        Json.sameValue (.number (.int m)) (.number (.int n)) = true ↔ m = n) ∧
      ∀ (document : Json) (path : String) (x : Expected) (m n : WideInt),
        resolve document path = some (.number (.int m)) →
        x.literal? document = some (.numeric (.int n)) →
        ∀ op : Operator, eval document (x.condition path op) = true ↔ op.Relates m.1 n.1 :=
  ⟨Json.Number.compare_int, Json.Number.isLinearOrder_int, fun _ _ => Json.sameValue_int,
    fun _ _ _ _ _ hm hn op => eval_int_iff hm hn op⟩

/-- The ends of the two ranges, and the neighbour of the upper one, which is nearest to the same
double. -/
def extremes : Json :=
  .object [("low", .number (.ofInt (-9223372036854775808))),
    ("high", .number (.ofInt 18446744073709551615)),
    ("next", .number (.ofInt 18446744073709551614))]

/-- The lowest integer is below the highest one, which is not the same as its neighbour. -/
theorem extremes_compare_exactly :
    resolve extremes "$.low" = some (.number (.ofInt (-9223372036854775808))) ∧
      resolve extremes "$.high" = some (.number (.ofInt 18446744073709551615)) ∧
      eval extremes (.comparePath "$.low" .lt .numeric "$.high") = true ∧
      eval extremes (.compare "$.high" .eq (.numeric (.ofInt 18446744073709551614))) = false := by
  have hlow : resolve extremes "$.low" = some (.number (.ofInt (-9223372036854775808))) := by
    decide +kernel
  have hhigh : resolve extremes "$.high" = some (.number (.ofInt 18446744073709551615)) := by
    decide +kernel
  have hpath : (Expected.path .numeric "$.high").literal? extremes =
      some (.numeric (.ofInt 18446744073709551615)) := by
    decide +kernel
  obtain ⟨-, -, -, heval⟩ := integers_compare_exactly
  refine ⟨hlow, hhigh, ?_, ?_⟩
  · exact (heval extremes "$.low" (.path .numeric "$.high") ⟨-9223372036854775808, by decide⟩
      ⟨18446744073709551615, by decide⟩ hlow hpath .lt).2 (by decide)
  · rw [← Bool.not_eq_true]
    exact mt (heval extremes "$.high" (.literal (.numeric (.ofInt 18446744073709551614)))
      ⟨18446744073709551615, by decide⟩ ⟨18446744073709551614, by decide⟩ hhigh rfl .eq).1
      (by decide)

end Condition

end StatesLang
