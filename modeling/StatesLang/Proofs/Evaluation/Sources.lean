import StatesLang.Proofs.Evaluation.Rendering
import StatesLang.Proofs.Evaluation.Strict
import StatesLang.Proofs.PathParameter
import StatesLang.Proofs.WellFormed.Check

/-!
# Paths into the two documents

A path expression stands in three places: as a parameter of a call, as a dynamic member of a
template, and in the fields of a failure, where it is only checked.

* `Path.Sources.Selects`: what a path expression selects, said of its text.
* `Path.exists_select_iff`: the expressions that select something in some documents within a bound.
* **`Path.places_agree`**: the three places take path expressions alike, but for indexes behind the
  end of every array, which the check passes.
-/

namespace StatesLang

open StatesLang.Path (Sources)

namespace Path

/-- Every index of the reference path in a path expression is below the bound. -/
def HasIndexesBelow (bound : Nat) (text : String) : Prop :=
  ∀ source path, scoped? text = some (source, path) → ∀ p, parse path = .ok p → p.IsWithin bound

/-- What a path expression selects: behind `$$` a path into the context, which keeps the second of
the two roots as its own, and otherwise a path into the input. -/
def Sources.Selects (d : Sources) (text : String) (v : Json) : Prop :=
  if ReadsContext text then selectText d.context (String.ofList text.toList.tail) = some v
  else selectText d.input text = some v

section Selection

variable {sources : Sources} {text : String}

theorem scoped_of_readsContext (h : ReadsContext text) :
    scoped? text = some (.context, String.ofList text.toList.tail) := by
  obtain ⟨rest, he⟩ := h
  unfold scoped?
  rw [← he]
  rfl

theorem scoped_of_rooted (hroot : text.toList.head? = some '$') (h : ¬ ReadsContext text) :
    scoped? text = some (.input, text) := by
  unfold scoped?
  split
  · next rest he => exact absurd ⟨rest, he.symm⟩ h
  · rfl
  · next hno =>
    obtain ⟨rest, he⟩ := List.head?_eq_some_iff.1 hroot
    exact absurd he (hno rest)

theorem select_eq_some_iff (hroot : text.toList.head? = some '$') {v : Json} :
    sources.select? text = some v ↔ sources.Selects text v := by
  unfold Sources.select? Sources.Selects
  split_ifs with h
  · rw [scoped_of_readsContext h]
    rfl
  · rw [scoped_of_rooted hroot h]
    rfl

theorem exists_select_iff {bound : Nat} :
    (∃ (d : Sources) (v : Json), d.IsWithin bound ∧ d.select? text = some v) ↔
      ∃ source path, scoped? text = some (source, path) ∧
        ∃ p, parse path = .ok p ∧ p.IsWithin bound := by
  unfold Sources.select?
  constructor
  · rintro ⟨d, v, hd, h⟩
    split at h
    · next source path hscoped =>
      obtain ⟨p, hp, hfollow⟩ := selectText_eq_some_iff.1 h
      have hdocument : (d.document source).IsWithin bound := by
        cases source
        · exact hd.input
        · exact hd.context
      exact ⟨source, path, hscoped, p, hp, isWithin_of_follow hdocument hfollow⟩
    · cases h
  · rintro ⟨source, path, hscoped, p, hp, hwithin⟩
    -- both documents are one in which the steps lead somewhere
    obtain ⟨document, v, hd, hv⟩ := exists_follow_iff.2 hwithin
    refine ⟨⟨document, document⟩, v, ⟨hd, hd⟩, ?_⟩
    simp only [hscoped, Sources.select, selectText_of_parse hp]
    cases source <;> exact hv

end Selection

end Path

/-! ## The places -/

section Places

variable {sources : Sources} {text : String}

theorem Template.render_single (r : Registry) (entropy : UInt64) :
    render r entropy sources (.object [("x.$", .string text)]) =
      (renderExpression r (Handler.inner entropy 0) sources text).map
        fun v => .object [("x", v)] := by
  have hname : dynamicName? "x.$" = some "x" := by decide +kernel
  simp only [render, renderMembers, hname, renderDynamic, List.length_nil]
  cases renderExpression r (Handler.inner entropy 0) sources text <;> rfl

theorem dynamicProblems_path (hroot : text.toList.head? = some '$') {settings : Settings.Validation}
    {place : Validation.Place} {field : String} :
    Validation.dynamicProblems settings place field (some text) = [] ↔
      ∃ source path, Path.scoped? text = some (source, path) ∧ Path.IsReference path := by
  have hscoped : Path.scoped? text ≠ none := fun h => by
    rw [Path.scoped_eq_none, Template.isPathExpression, hroot] at h
    cases h
  simp only [Validation.dynamicProblems_eq_nil, Option.mem_some_iff, forall_eq',
    State.Fail.IsDynamic, hscoped, false_and, or_false]

/-- **The places for path expressions agree.** A parameter of a call has a value exactly if a
template with the expression has it, the one that the text says; and there are documents within a
bound in which the expression has a value exactly if the check of a failure passes it and all its
indexes are below the bound. -/
theorem Path.places_agree (hroot : text.toList.head? = some '$')
    (call : Call → Except Call.Error Json) (r : Registry) (entropy : UInt64)
    (settings : Settings.Validation) (place : Validation.Place) (field : String) :
    (∀ (sources : Sources) (v : Json),
      (Registry.resolveParam sources call (.path text) = .ok v ↔ sources.Selects text v) ∧
      (Registry.resolveParam sources call (.path text) = .ok v ↔
        Template.render r entropy sources (.object [("x.$", .string text)]) =
          .ok (.object [("x", v)]))) ∧
    ∀ bound, (∃ (sources : Sources) (v : Json), sources.IsWithin bound ∧
        Registry.resolveParam sources call (.path text) = .ok v) ↔
      Validation.dynamicProblems settings place field (some text) = [] ∧
        HasIndexesBelow bound text := by
  have hpath : Template.isPathExpression text = true := by
    rw [Template.isPathExpression, hroot]
    rfl
  have hresolve : ∀ (sources : Sources) (v : Json),
      Registry.resolveParam sources call (.path text) = .ok v ↔ sources.select? text = some v :=
    fun _ _ => Registry.resolvePath_eq_ok
  refine ⟨fun sources v => ⟨?_, ?_⟩, fun bound => ?_⟩
  · rw [hresolve, select_eq_some_iff hroot]
  · rw [hresolve, Template.render_single, Template.renderExpression_of_path hpath]
    cases sources.select? text <;> simp [Except.map]
  · simp only [hresolve, exists_select_iff, dynamicProblems_path hroot]
    constructor
    · rintro ⟨source, path, hscoped, p, hp, hwithin⟩
      refine ⟨⟨source, path, hscoped, p, hp⟩, fun source' path' hscoped' p' hp' => ?_⟩
      cases hscoped.symm.trans hscoped'
      cases hp.symm.trans hp'
      exact hwithin
    · rintro ⟨⟨source, path, hscoped, p, hp⟩, hbelow⟩
      exact ⟨source, path, hscoped, p, hp, hbelow source path hscoped p hp⟩

/-- With two roots a path leads into the context. With three it leads nowhere, and is refused. -/
theorem Path.places_agree_roots :
    Registry.resolveParam ⟨.null, .object [("a", .bool true)]⟩ (fun _ => .ok .null)
        (.path "$$['a']") = .ok (.bool true) ∧
    Template.render (.standard {}) 0 ⟨.null, .object [("a", .bool true)]⟩
        (.object [("x.$", .string "$$['a']")]) = .ok (.object [("x", .bool true)]) ∧
    ¬ ∃ (bound : Nat) (sources : Sources) (v : Json), sources.IsWithin bound ∧
      Registry.resolveParam sources (fun _ => .ok .null) (.path "$$$.a") = .ok v := by
  have htwoRoots : "$$['a']".toList.head? = some '$' := by decide
  have hthreeRoots : "$$$.a".toList.head? = some '$' := by decide
  have htwo := (places_agree htwoRoots (fun _ => .ok .null) (.standard {}) 0 {} [] "ErrorPath").1
    ⟨.null, .object [("a", .bool true)]⟩ (.bool true)
  have hthree := (places_agree hthreeRoots (fun _ => .ok .null) (.standard {}) 0 {} []
    "ErrorPath").2
  have hselects : Sources.Selects ⟨.null, .object [("a", .bool true)]⟩ "$$['a']" (.bool true) := by
    rw [Sources.Selects, if_pos (by decide)]
    decide +kernel
  have hvalue := htwo.1.2 hselects
  have hrefused : Validation.dynamicProblems {} [] "ErrorPath" (some "$$$.a") =
      [⟨[], .notDynamic "ErrorPath" "$$$.a"⟩] := by decide +kernel
  refine ⟨hvalue, htwo.2.1 hvalue, ?_⟩
  rintro ⟨bound, h⟩
  exact List.cons_ne_nil _ _ (hrefused.symm.trans ((hthree bound).1 h).1)

/-- An index can be larger than the number of items of any array. -/
theorem Path.largestIndex_accepted :
    Validation.dynamicProblems {} [] "ErrorPath" (some "$[18446744073709551615]") = [] ∧
    ¬ ∃ (sources : Sources) (v : Json), sources.IsWithin (UInt64.size - 1) ∧
      Registry.resolveParam sources (fun _ => .ok .null) (.path "$[18446744073709551615]") =
        .ok v := by
  refine ⟨by decide +kernel, ?_⟩
  rintro ⟨sources, v, hd, h⟩
  have hselect : sources.select? "$[18446744073709551615]" = some v :=
    Registry.resolvePath_eq_ok.1 h
  obtain ⟨source, path, hscoped, p, hp, hwithin⟩ := exists_select_iff.1 ⟨sources, v, hd, hselect⟩
  have hpath : scoped? "$[18446744073709551615]" = some (.input, "$[18446744073709551615]") := by
    decide +kernel
  cases hscoped.symm.trans hpath
  have hparse : parse "$[18446744073709551615]" =
      .ok ⟨"$[18446744073709551615]", [.index 18446744073709551615]⟩ := by decide +kernel
  cases hp.symm.trans hparse
  exact absurd (hwithin _ List.mem_cons_self) (by decide)

end Places

end StatesLang
