import StatesLang.Proofs.Evaluation.Rendering
import StatesLang.Proofs.WellFormed.Rules

/-!
# What templates read

A template reads the documents through the paths in it, those among the parameters of its calls
included.

* `Template.Calls`: the calls in a template; `Template.Mentions`: the paths in it.
* **`Template.render_footprint`**: documents that agree on these paths render the template alike.
-/

namespace StatesLang

open StatesLang.Path (Sources)

namespace Template

/-- A dynamic member of a template holds an expression. -/
def Holds (t : Json) (expression : String) : Prop :=
  ∃ key, (key, .string expression) ∈ dynamicMembers t

/-- A call in a template: one that an expression is read as, or one inside such a call. -/
def Calls (limit : Nat) (t : Json) (c : Call) : Prop :=
  ∃ expression d, Holds t expression ∧ isPathExpression expression = false ∧
    Call.parse limit expression = .ok d ∧ d.Part c

/-- A path in a template: an expression, or a parameter of a call. -/
inductive Mentions (limit : Nat) (t : Json) : String → Prop
  | expression {text : String} (ht : Holds t text) (hpath : isPathExpression text = true) :
    Mentions limit t text
  | param {text : String} {c : Call} (hc : Calls limit t c) (ht : .path text ∈ c.params) :
    Mentions limit t text

end Template

/-! ## Paths -/

theorem Path.select_of_not_readsContext {text : String} (h : ¬ Path.ReadsContext text)
    (input context context' : Json) :
    Sources.select? ⟨input, context⟩ text = Sources.select? ⟨input, context'⟩ text := by
  unfold Sources.select?
  split
  · next source path hscoped =>
    unfold Path.scoped? at hscoped
    split at hscoped
    · next rest he => exact absurd ⟨rest, he.symm⟩ h
    · cases hscoped
      rfl
    · cases hscoped
  · rfl

namespace Template

variable {sources sources' : Sources} {entropy entropy' : UInt64} {t : Json}

/-! ## Expressions -/

theorem renderExpression_congr {r : Registry} (hr : r.IsPlain) {expression : String}
    (ht : Holds t expression)
    (hpaths : ∀ text, Mentions r.limits.maxNestingDepth t text →
      sources.select? text = sources'.select? text)
    (hchance : entropy = entropy' ∨
      ∀ c, Calls r.limits.maxNestingDepth t c → ¬ c.IsRandom) :
    renderExpression r entropy sources expression =
      renderExpression r entropy' sources' expression := by
  cases hpath : isPathExpression expression with
  | true =>
    rw [renderExpression_of_path hpath, renderExpression_of_path hpath,
      hpaths expression (.expression ht hpath)]
  | false =>
    rw [renderExpression_of_call hpath, renderExpression_of_call hpath, Registry.evaluate,
      Registry.evaluate]
    split
    · next c hc =>
      have hcalls : ∀ d, c.Part d → Calls r.limits.maxNestingDepth t d :=
        fun d hd => ⟨expression, c, ht, hpath, hc, hd⟩
      rw [Registry.call_congr hr ⟨fun d hd text htext => hpaths text (.param (hcalls d hd) htext),
        hchance.imp_right fun hn d hd => hn d (hcalls d hd)⟩]
    · rfl

/-! ## Templates -/

/-- **A template reads the documents through its paths only.** Documents on which all of them select
the same render it alike, to a value or an error, as far as chance does not come in. In particular
the context does not matter to a template without paths into it. -/
theorem render_footprint (limits : Settings.Calls) (t : Json) {entropy entropy' : UInt64}
    (hchance : entropy = entropy' ∨ ∀ c, Calls limits.maxNestingDepth t c → ¬ c.IsRandom) :
    (∀ sources sources' : Sources,
      (∀ text, Mentions limits.maxNestingDepth t text →
        sources.select? text = sources'.select? text) →
      render (.standard limits) entropy sources t = render (.standard limits) entropy' sources' t) ∧
    ((∀ text, Mentions limits.maxNestingDepth t text → ¬ Path.ReadsContext text) →
      ∀ input context context', render (.standard limits) entropy ⟨input, context⟩ t =
        render (.standard limits) entropy' ⟨input, context'⟩ t) := by
  have hagree : ∀ sources sources' : Sources,
      (∀ text, Mentions limits.maxNestingDepth t text →
        sources.select? text = sources'.select? text) →
      render (.standard limits) entropy sources t =
        render (.standard limits) entropy' sources' t := by
    intro sources sources' hpaths
    refine render_congr t ?_ hchance
    rintro ⟨key, value⟩ hm seed seed' hseed
    cases value with
    | string expression =>
      exact renderExpression_congr (fun _ _ => Registry.standard_isPlain) ⟨key, hm⟩ hpaths hseed
    | _ => rfl
  refine ⟨hagree, fun hinput input context context' => hagree _ _ fun text ht => ?_⟩
  exact Path.select_of_not_readsContext (hinput text ht) input context context'

/-- The sum of two members of the input and a number, and another member. -/
def bill : Json :=
  .object [("sum.$", .string "States.MathAdd($.net, States.MathAdd($.tax, 1))"),
    ("to.$", .string "$.name")]

theorem holds_bill {expression : String} (h : Holds bill expression) :
    expression = "States.MathAdd($.net, States.MathAdd($.tax, 1))" ∨ expression = "$.name" := by
  have hmembers : dynamicMembers bill =
      [("sum.$", .string "States.MathAdd($.net, States.MathAdd($.tax, 1))"),
        ("to.$", .string "$.name")] := by cbv
  obtain ⟨key, hkey⟩ := h
  simp only [hmembers, List.mem_cons, Prod.mk.injEq, Json.string.injEq, List.not_mem_nil,
    or_false] at hkey
  exact hkey.imp And.right And.right

theorem calls_bill {c : Call} (hc : Calls 32 bill c) :
    c = ⟨"States.MathAdd", [.path "$.net", .call ⟨"States.MathAdd", [.path "$.tax", .int 1]⟩]⟩ ∨
      c = ⟨"States.MathAdd", [.path "$.tax", .int 1]⟩ := by
  have hparse : Call.parse 32 "States.MathAdd($.net, States.MathAdd($.tax, 1))" =
      .ok ⟨"States.MathAdd", [.path "$.net",
        .call ⟨"States.MathAdd", [.path "$.tax", .int 1]⟩]⟩ := by decide +kernel
  obtain ⟨expression, d, hholds, hpath, hd, hpart⟩ := hc
  obtain rfl | rfl := holds_bill hholds
  · cases hparse.symm.trans hd
    cases hpart with
    | self => exact .inl rfl
    | param hin hpart =>
      cases (by simpa [Call.params] using hin : _ = Call.mk "States.MathAdd" _)
      cases hpart with
      | self => exact .inr rfl
      | param hin _ => simp [Call.params] at hin
  · exact absurd hpath (by decide)

theorem mentions_bill {text : String} (h : Mentions 32 bill text) :
    text = "$.net" ∨ text = "$.tax" ∨ text = "$.name" := by
  cases h with
  | expression ht hpath =>
    obtain rfl | rfl := holds_bill ht
    · exact absurd hpath (by decide)
    · exact .inr (.inr rfl)
  | param hc ht =>
    obtain rfl | rfl := calls_bill hc
    · exact .inl (by simpa [Call.params] using ht)
    · exact .inr (.inl (by simpa [Call.params] using ht))

/-- A note that the bill does not mention is not read, nor is the context. -/
theorem bill_footprint :
    render (.standard {}) 0 ⟨.object [("name", .string "Ada"), ("net", .number (.ofInt 2)),
        ("tax", .number (.ofInt 3))], .null⟩ bill =
      render (.standard {}) 1 ⟨.object [("name", .string "Ada"), ("net", .number (.ofInt 2)),
        ("note", .string "paid"), ("tax", .number (.ofInt 3))], .bool true⟩ bill ∧
    render (.standard {}) 0 ⟨.string "Ada", .null⟩ bill =
      render (.standard {}) 1 ⟨.string "Ada", .bool true⟩ bill := by
  have hsteady : ∀ c, Calls 32 bill c → ¬ c.IsRandom := by
    intro c hc
    obtain rfl | rfl := calls_bill hc <;> simp [Call.IsRandom, Builtin.Draws, Call.name]
  obtain ⟨hagree, hcontext⟩ := @render_footprint {} bill 0 1 (.inr hsteady)
  refine ⟨hagree _ _ fun text ht => ?_, hcontext (fun text ht => ?_) _ _ _⟩
  · obtain rfl | rfl | rfl := mentions_bill ht <;> cbv
  · obtain rfl | rfl | rfl := mentions_bill ht <;> decide

end Template

end StatesLang
