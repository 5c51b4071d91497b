import Mathlib.Order.Compare
import StatesLang.Condition.Eval
import StatesLang.Proofs.Comparison.Number

/-!
# The order behind comparisons

A comparison reads its operands as literals of a kind. All operators but the wildcard one look at
the order of these literals only, in which case it does not matter whether one of them is written in
the condition or found in the document.

* `Condition.Literal.order?`: the order of two literals of a kind.
* `Condition.eval_eq_accepts`: a comparison accepts or refuses the order of its operands.
* **`Condition.comparePath_iff_compare`**: a comparison of two values is one with the second value
  as a literal.
* **`Condition.operators_coherent`**: operators exclude, cover and mirror each other as the order
  does.
-/

namespace StatesLang

theorem Timestamp.compare_swap (s t : Timestamp) : (s.compare t).swap = t.compare s := by
  rw [compare, Ordering.swap_then, Int.compare_swap, Nat.compare_swap]
  rfl

namespace Condition

/-! ## Comparing with literals -/

/-- The order of two literals of a kind. Truth values have none. -/
def Literal.order? : Literal → Literal → Option Ordering
  | .string a, .string e => some (Ord.compare a e)
  | .numeric a, .numeric e => some (a.compare e)
  | .timestamp a, .timestamp e => some (a.compare e)
  | _, _ => none

theorem Literal.exists_order {a e : Literal} (hkind : a.kind = e.kind) (he : e.kind ≠ .boolean) :
    ∃ o, a.order? e = some o := by
  cases a <;> cases e <;> cases hkind
  case boolean.boolean.refl => exact absurd rfl he
  all_goals exact ⟨_, rfl⟩

theorem holdsWith_eq {op : Operator} {e : Literal} (hop : op ≠ .wildcard) (he : e.kind ≠ .boolean)
    (actual : Json) : holdsWith op actual e =
      ((Literal.ofJson? e.kind actual).bind (·.order? e)).any op.accepts := by
  cases e with
  | boolean b => exact absurd rfl he
  | string e =>
    cases actual <;> simp [holdsWith, hop, Literal.kind, Literal.ofJson?, Literal.order?]
  | numeric e => cases actual <;> simp [holdsWith, Literal.kind, Literal.ofJson?, Literal.order?]
  | timestamp e =>
    cases actual with
    | string s =>
      cases h : Timestamp.parse? s <;>
        simp [holdsWith, Literal.kind, Literal.ofJson?, Literal.order?, h]
    | _ => rfl

theorem holdsWith_of_none {op : Operator} {e : Literal} {actual : Json}
    (h : Literal.ofJson? e.kind actual = none) : holdsWith op actual e = false := by
  cases e <;> cases actual <;> simp_all [holdsWith, Literal.kind, Literal.ofJson?]

theorem holdsBetween_eq {op : Operator} (hop : op ≠ .wildcard) (kind : Kind)
    (actual expected : Json) : holdsBetween op kind actual expected =
      (Literal.ofJson? kind expected).any (holdsWith op actual) := by
  cases kind with
  | string | numeric | boolean =>
    cases actual <;> cases expected <;> simp [holdsBetween, hop, Literal.ofJson?, holdsWith]
  | timestamp =>
    cases expected with
    | string s =>
      cases hs : Timestamp.parse? s <;> cases actual with
      | string t =>
        cases ht : Timestamp.parse? t <;>
          simp [holdsBetween, hop, Literal.ofJson?, holdsWith, hs, ht]
      | _ => simp [holdsBetween, hop, Literal.ofJson?, holdsWith, hs]
    | _ => cases actual <;> simp [holdsBetween, hop, Literal.ofJson?]

/-! ## Comparisons in documents -/

/-- The literal of a kind that a comparison reads at a path. -/
def literalAt? (document : Json) (kind : Kind) (path : String) : Option Literal :=
  (resolve document path).bind (Literal.ofJson? kind)

theorem kind_literalAt {document : Json} {kind : Kind} {path : String} {l : Literal}
    (h : literalAt? document kind path = some l) : l.kind = kind := by
  obtain ⟨value, -, hvalue⟩ := Option.bind_eq_some_iff.1 h
  exact Literal.kind_ofJson hvalue

/-- What a comparison expects: a literal, or a value of a kind at a path. -/
inductive Expected
  | literal (e : Literal)
  | path (kind : Kind) (p : String)

namespace Expected

/-- The kind of the values that are compared. -/
def kind : Expected → Kind
  | literal e => e.kind
  | path kind _ => kind

/-- The comparison of the value at a path with what is expected. -/
def condition (path : String) (op : Operator) : Expected → Condition
  | literal e => .compare path op e
  | .path kind p => .comparePath path op kind p

/-- The literal that is expected of a value in a document, if there is one. -/
def literal? (document : Json) : Expected → Option Literal
  | literal e => some e
  | path kind p => literalAt? document kind p

end Expected

section Document

variable {document : Json} {path : String} {op : Operator} {x : Expected}

theorem Expected.kind_literal {e : Literal} (h : x.literal? document = some e) :
    e.kind = x.kind := by
  cases x with
  | literal e' => cases h; rfl
  | path kind p => exact kind_literalAt h

/-- The condition is a comparison with the expected literal, and false where there is none. -/
theorem eval_condition (hop : op ≠ .wildcard) : eval document (x.condition path op) =
    (x.literal? document).any fun e => eval document (.compare path op e) := by
  cases x with
  | literal e => rfl
  | path kind p =>
    simp only [Expected.condition, Expected.literal?, literalAt?, eval, evalComparePath,
      evalCompare]
    cases resolve document path with
    | none => cases resolve document p <;> simp
    | some actual =>
      cases resolve document p with
      | none => rfl
      | some expected => exact holdsBetween_eq hop kind actual expected

/-- **A comparison of the values at two paths is true exactly if there is a value of the kind at the
second one, and the comparison with this value as a literal is true.** -/
theorem comparePath_iff_compare {op : Operator} (hop : op ≠ .wildcard) {kind : Kind}
    {expectedPath : String} :
    eval document (.comparePath path op kind expectedPath) = true ↔
      ∃ value e, resolve document expectedPath = some value ∧ Literal.ofJson? kind value = some e ∧
        eval document (.compare path op e) = true := by
  change eval document ((Expected.path kind expectedPath).condition path op) = true ↔ _
  rw [eval_condition hop, Option.any_eq_true]
  constructor
  · rintro ⟨e, he, h⟩
    obtain ⟨value, hvalue, hliteral⟩ := Option.bind_eq_some_iff.1 he
    exact ⟨value, e, hvalue, hliteral, h⟩
  · rintro ⟨value, e, hvalue, hliteral, h⟩
    exact ⟨e, Option.bind_eq_some_iff.2 ⟨value, hvalue, hliteral⟩, h⟩

/-- A shift that starts in a leap second and ends right after it, on a clock an hour ahead. -/
def leapShift : Json :=
  .object [("starts", .string "2016-12-31T23:59:60Z"),
    ("ends", .string "2017-01-01T01:00:00+01:00")]

/-- A leap second is before the next day, also for the end of the shift as a literal. -/
theorem leapShift_compare : Operator.lt ≠ .wildcard ∧
    eval leapShift (.comparePath "$.starts" .lt .timestamp "$.ends") = true ∧
    ∃ value e, resolve leapShift "$.ends" = some value ∧ Literal.ofJson? .timestamp value = some e ∧
      eval leapShift (.compare "$.starts" .lt e) = true := by
  have hop : Operator.lt ≠ .wildcard := by decide
  have heval : eval leapShift (.comparePath "$.starts" .lt .timestamp "$.ends") = true := by
    decide +kernel
  exact ⟨hop, heval, (comparePath_iff_compare hop).1 heval⟩

/-- A comparison accepts or refuses the order of its operands. -/
theorem eval_eq_accepts (hop : op ≠ .wildcard) (hx : x.kind ≠ .boolean) :
    eval document (x.condition path op) =
      ((literalAt? document x.kind path).bind fun a =>
        (x.literal? document).bind fun e => a.order? e).any op.accepts := by
  rw [eval_condition hop]
  cases he : x.literal? document with
  | none => simp
  | some e =>
    have hkind := Expected.kind_literal he
    simp only [Option.any_some, Option.bind_some, eval, evalCompare, literalAt?]
    cases resolve document path with
    | none => rfl
    | some actual =>
      rw [← hkind] at hx ⊢
      exact holdsWith_eq hop hx actual

end Document

/-! ## Coherence -/

namespace Operator

/-- The operator for operands in exchanged places. -/
def swap : Operator → Operator
  | .lt => .gt
  | .gt => .lt
  | .lte => .gte
  | .gte => .lte
  | op => op

theorem accepts_swap (op : Operator) (o : Ordering) : op.swap.accepts o.swap = op.accepts o := by
  cases op <;> cases o <;> rfl

/-- The operator that accepts an order and no other. -/
def ofOrdering : Ordering → Operator
  | .lt => .lt
  | .eq => .eq
  | .gt => .gt

theorem ofOrdering_mem (o : Ordering) : ofOrdering o ∈ [lt, eq, gt] := by
  cases o <;> decide

theorem accepts_iff {op : Operator} (h : op ∈ [lt, eq, gt]) (o : Ordering) :
    op.accepts o = true ↔ op = ofOrdering o := by
  simp only [List.mem_cons, List.not_mem_nil, or_false] at h
  rcases h with rfl | rfl | rfl <;> cases o <;> decide

/-- Operators that exclude and cover each other as those of an order. -/
structure Coherent (holds : Operator → Bool) : Prop where
  unique : ∀ {op op' : Operator}, op ∈ [lt, eq, gt] → op' ∈ [lt, eq, gt] →
    holds op = true → holds op' = true → op = op'
  lte_iff : holds .lte = true ↔ holds .lt = true ∨ holds .eq = true
  gte_iff : holds .gte = true ↔ holds .gt = true ∨ holds .eq = true

theorem ne_wildcard {op : Operator} (h : op ∈ [lt, eq, gt]) : op ≠ .wildcard := by
  rintro rfl
  simp at h

theorem Coherent.of_accepts {holds : Operator → Bool} {o : Ordering}
    (h : ∀ op, op ≠ .wildcard → holds op = op.accepts o) : Coherent holds where
  unique {op op'} hop hop' ho ho' := by
    rw [h _ (ne_wildcard hop), accepts_iff hop] at ho
    rw [h _ (ne_wildcard hop'), accepts_iff hop'] at ho'
    rw [ho, ho']
  lte_iff := by
    rw [h _ (by decide), h _ (by decide), h _ (by decide)]
    cases o <;> decide
  gte_iff := by
    rw [h _ (by decide), h _ (by decide), h _ (by decide)]
    cases o <;> decide

theorem Coherent.of_false {holds : Operator → Bool} (h : ∀ op, holds op = false) :
    Coherent holds where
  unique _ _ ho := absurd ho (by simp [h])
  lte_iff := by simp [h]
  gte_iff := by simp [h]

end Operator

theorem Literal.order?_swap (a e : Literal) : (a.order? e).map Ordering.swap = e.order? a := by
  cases a <;> cases e <;> try rfl
  case string.string a e => exact congrArg some Std.OrientedOrd.eq_swap.symm
  case numeric.numeric a e => exact congrArg some (Json.Number.compare_swap a e)
  case timestamp.timestamp a e => exact congrArg some (Timestamp.compare_swap a e)

theorem holdsBetween_eq_accepts {op : Operator} {kind : Kind} (hop : op ≠ .wildcard)
    (hkind : kind ≠ .boolean) (actual expected : Json) : holdsBetween op kind actual expected =
      ((Literal.ofJson? kind actual).bind fun a =>
        (Literal.ofJson? kind expected).bind fun e => a.order? e).any op.accepts := by
  rw [holdsBetween_eq hop]
  cases he : Literal.ofJson? kind expected with
  | none => simp
  | some e =>
    obtain rfl := Literal.kind_ofJson he
    exact holdsWith_eq hop hkind actual

theorem holdsBetween_swap (op : Operator) (kind : Kind) (actual expected : Json) :
    holdsBetween op.swap kind expected actual = holdsBetween op kind actual expected := by
  by_cases hop : op = .wildcard
  · rw [hop]
    rfl
  have hswap : op.swap ≠ .wildcard := by cases op <;> simp_all [Operator.swap]
  by_cases hkind : kind = .boolean
  · -- truth values have no order, but being equal is the same either way
    subst hkind
    unfold holdsBetween
    rw [if_neg hop, if_neg hswap]
    cases actual <;> cases expected <;> try rfl
    case bool.bool a e =>
      have heq : (op.swap == .eq) = (op == .eq) := by cases op <;> rfl
      change (op.swap == .eq && e == a) = (op == .eq && a == e)
      rw [heq, Bool.beq_comm (a := e)]
  · rw [holdsBetween_eq_accepts hop hkind, holdsBetween_eq_accepts hswap hkind]
    cases Literal.ofJson? kind actual with
    | none => cases Literal.ofJson? kind expected <;> rfl
    | some a =>
      cases Literal.ofJson? kind expected with
      | none => rfl
      | some e =>
        simp only [Option.bind_some]
        rw [← Literal.order?_swap a e, Option.any_map]
        exact congrArg (fun f => (a.order? e).any f) (funext fun o => op.accepts_swap o)

section Document

variable {document : Json} {path : String} {x : Expected}

/-- Both operands of a comparison are values of its kind. -/
def Expected.Comparable (document : Json) (path : String) (x : Expected) : Prop :=
  (literalAt? document x.kind path).isSome = true ∧ (x.literal? document).isSome = true

/-- Operators accept or refuse the order of two operands that are values of the kind. -/
theorem Expected.Comparable.exists_order (h : x.Comparable document path) (hx : x.kind ≠ .boolean) :
    ∃ o : Ordering, ∀ op, op ≠ .wildcard → eval document (x.condition path op) = op.accepts o := by
  obtain ⟨a, ha⟩ := Option.isSome_iff_exists.1 h.1
  obtain ⟨e, he⟩ := Option.isSome_iff_exists.1 h.2
  have hkind : a.kind = e.kind := (kind_literalAt ha).trans (Expected.kind_literal he).symm
  obtain ⟨o, ho⟩ := Literal.exists_order hkind (Expected.kind_literal he ▸ hx)
  refine ⟨o, fun op hop => ?_⟩
  rw [eval_eq_accepts hop hx, ha, he, Option.bind_some, Option.bind_some, ho, Option.any_some]

theorem eval_compare_of_none {op : Operator} {e : Literal}
    (h : literalAt? document e.kind path = none) : eval document (.compare path op e) = false := by
  simp only [eval, evalCompare]
  cases hactual : resolve document path with
  | none => rfl
  | some actual =>
    rw [literalAt?, hactual, Option.bind_some] at h
    exact holdsWith_of_none h

theorem eval_comparePath_wildcard (kind : Kind) (expectedPath : String) :
    eval document (.comparePath path .wildcard kind expectedPath) = false := by
  simp only [eval, evalComparePath]
  split <;> rfl

theorem eval_of_not_comparable (h : ¬ x.Comparable document path) (op : Operator) :
    eval document (x.condition path op) = false := by
  cases x with
  | literal e =>
    have hnone : literalAt? document e.kind path = none := by
      simpa [Expected.Comparable, Expected.kind, Expected.literal?] using h
    exact eval_compare_of_none hnone
  | path kind p =>
    by_cases hop : op = .wildcard
    · rw [hop]
      exact eval_comparePath_wildcard kind p
    · rw [eval_condition hop]
      cases he : (Expected.path kind p).literal? document with
      | none => rfl
      | some e =>
        obtain rfl : e.kind = kind := Expected.kind_literal he
        have hnone : literalAt? document e.kind path = none := by
          simpa [Expected.Comparable, Expected.kind, he] using h
        exact eval_compare_of_none hnone

theorem eval_comparePath_swap (op : Operator) (kind : Kind) (expectedPath : String) :
    eval document (.comparePath expectedPath op.swap kind path) =
      eval document (.comparePath path op kind expectedPath) := by
  simp only [eval, evalComparePath]
  cases resolve document path with
  | none => cases resolve document expectedPath <;> rfl
  | some actual =>
    cases resolve document expectedPath with
    | none => rfl
    | some expected => exact holdsBetween_swap op kind actual expected

/-- **Operators exclude, cover and mirror each other as the order of the operands does**, and are
false where there is none. -/
theorem operators_coherent (document : Json) (path : String) :
    (∀ x : Expected, x.kind ≠ .boolean →
      Operator.Coherent (fun op => eval document (x.condition path op)) ∧
      (x.Comparable document path →
        ∃! op, op ∈ [Operator.lt, .eq, .gt] ∧ eval document (x.condition path op) = true) ∧
      (¬ x.Comparable document path → ∀ op, eval document (x.condition path op) = false)) ∧
    ∀ kind op expectedPath, eval document (.comparePath expectedPath op.swap kind path) =
      eval document (.comparePath path op kind expectedPath) := by
  refine ⟨fun x hx => ⟨?_, fun h => ?_, eval_of_not_comparable⟩, fun kind op p =>
    eval_comparePath_swap op kind p⟩
  · by_cases h : x.Comparable document path
    · obtain ⟨o, ho⟩ := h.exists_order hx
      exact .of_accepts ho
    · exact .of_false (eval_of_not_comparable h)
  · obtain ⟨o, ho⟩ := h.exists_order hx
    have hmem := Operator.ofOrdering_mem o
    refine ⟨.ofOrdering o, ⟨hmem, ?_⟩, ?_⟩
    · rw [ho _ (Operator.ne_wildcard hmem), Operator.accepts_iff hmem]
    · rintro op ⟨hop, heval⟩
      rwa [ho _ (Operator.ne_wildcard hop), Operator.accepts_iff hop] at heval

/-- Exactly one of the three orders is that of the two ends of the shift. -/
theorem leapShift_coherent : (Expected.path .timestamp "$.ends").kind ≠ .boolean ∧
    (Expected.path .timestamp "$.ends").Comparable leapShift "$.starts" ∧
    ∃! op, op ∈ [Operator.lt, .eq, .gt] ∧
      eval leapShift (.comparePath "$.starts" op .timestamp "$.ends") = true := by
  have hkind : (Expected.path .timestamp "$.ends").kind ≠ .boolean := by decide
  have hboth : (Expected.path .timestamp "$.ends").Comparable leapShift "$.starts" :=
    ⟨by decide +kernel, by decide +kernel⟩
  obtain ⟨-, hone, -⟩ := (operators_coherent leapShift "$.starts").1 _ hkind
  exact ⟨hkind, hboth, hone hboth⟩

end Document

end Condition

end StatesLang
