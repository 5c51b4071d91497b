import StatesLang.Proofs.Evaluation.Rendering
import StatesLang.Proofs.WellFormed.Limits

/-!
# Payloads of machines

The check of a definition leaves its templates only the errors that depend on the documents.

* `State.templates`: the payload templates of a state.
* `Template.Entry.Fails`: a path that selects nothing, and a call that fails in evaluation.
* **`Machine.render_fails_iff`**: a template of a machine fails as the first of its entries with
  such an error, and for no other reason.
-/

namespace StatesLang

/-! ## Templates of states -/

namespace State

/-- The templates of some work: its parameters, and what is selected of its result. -/
def Work.templates (w : Work) : List Json :=
  w.parameters.toList ++ w.resultSelector.toList

/-- The payload templates of a state. -/
def templates : State → List Json
  | .task t => t.work.templates
  | .pass p => p.parameters.toList
  | .parallel p _ => p.work.templates
  | .map m _ => m.work.templates
  | .choice _ | .wait _ | .succeed _ | .fail _ => []

variable {limit : Nat} {g : Graph} {t : Json}

theorem Work.WellFormed.template {w : Work} (h : w.WellFormed limit) (ht : t ∈ w.templates) :
    Template.WellFormed limit t := by
  obtain ht | ht := List.mem_append.1 ht
  · exact h.parameters t (Option.mem_toList.1 ht)
  · exact h.resultSelector t (Option.mem_toList.1 ht)

theorem WellFormed.template {s : State} (h : s.WellFormed limit g) (ht : t ∈ s.templates) :
    Template.WellFormed limit t := by
  cases s with
  | task _ => exact h.work.template ht
  | pass _ => exact h.parameters t (Option.mem_toList.1 ht)
  | parallel _ _ => exact h.2.work.template ht
  | map _ _ => exact h.2.work.template ht
  | choice _ | wait _ | succeed _ | fail _ => exact nomatch ht

end State

/-! ## Entries of checked templates -/

namespace Template

variable {r : Registry} {sources : Path.Sources} {t : Json} {e : Error}

/-- An entry that fails for what the documents hold: it is a path that selects nothing in them, or
it is read as a call whose evaluation fails. -/
inductive Entry.Fails (r : Registry) (sources : Path.Sources) (m : Entry) : Error → Prop
  | path {expression : String} (hvalue : m.value = .string expression)
    (hpath : isPathExpression expression = true) (hnone : sources.select? expression = none) :
    Fails r sources m (.missingPath expression)
  | call {expression : String} {c : Call} {e : Call.Error} (hvalue : m.value = .string expression)
    (hcall : isPathExpression expression = false)
    (hparse : Call.parse r.limits.maxNestingDepth expression = .ok c)
    (he : r.call m.entropy c sources = .error e) : Fails r sources m (.call e)

theorem mapError_eq_error {ε ε' α : Type} {f : ε → ε'} {x : Except ε α} {e : ε'} :
    x.mapError f = .error e ↔ ∃ e', x = .error e' ∧ f e' = e := by
  cases x <;> simp [Except.mapError]

theorem Entry.render_eq_error_iff_fails {m : Entry} {expression : String}
    (hvalue : m.value = .string expression)
    (hwell : IsExpression r.limits.maxNestingDepth expression) :
    m.render r sources = .error e ↔ m.Fails r sources e := by
  rw [Entry.render, hvalue, renderDynamic]
  cases hpath : isPathExpression expression with
  | true =>
    rw [renderExpression_of_path hpath]
    constructor
    · intro h
      split at h
      · cases h
      · next hnone =>
        cases h
        exact .path hvalue hpath hnone
    · intro h
      cases h with
      | path hv _ hnone =>
        cases hvalue.symm.trans hv
        rw [hnone]
      | call hv hcall =>
        cases hvalue.symm.trans hv
        rw [hpath] at hcall
        cases hcall
  | false =>
    rw [IsExpression, if_neg (by simp [hpath])] at hwell
    obtain ⟨c, hc⟩ := hwell
    rw [renderExpression_of_call hpath, Registry.evaluate, hc]
    simp only [mapError_eq_error]
    constructor
    · rintro ⟨e', he', rfl⟩
      exact .call hvalue hpath hc he'
    · intro h
      cases h with
      | path hv hpath' =>
        cases hvalue.symm.trans hv
        rw [hpath] at hpath'
        cases hpath'
      | call hv _ hparse he =>
        cases hvalue.symm.trans hv
        cases hc.symm.trans hparse
        exact ⟨_, he, rfl⟩

/-- Neither the definition nor the grammar of calls is at fault. -/
theorem Entry.Fails.blameless (hr : r.IsPlain) {m : Entry} (h : m.Fails r sources e) :
    (StatesLang.Error.template e).kind ≠ .invalidDefinition ∧
      ∀ text d, e ≠ .call (.malformed text d) := by
  cases h with
  | path => exact ⟨nofun, nofun⟩
  | call _ _ _ he =>
    have hevaluation := Registry.call_eq_error hr he
    refine ⟨hevaluation.kind_ne, ?_⟩
    rintro text d ⟨⟩
    cases hevaluation

theorem WellFormed.render_eq_error_iff_fails (h : WellFormed r.limits.maxNestingDepth t)
    {entropy : UInt64} : render r entropy sources t = .error e ↔
      ∃ before m after, entries entropy t = before ++ m :: after ∧
        (∀ x ∈ before, ∃ v, x.render r sources = .ok v) ∧ m.Fails r sources e := by
  rw [render_eq_error_iff]
  have hentry : ∀ m ∈ entries entropy t, m.render r sources = .error e ↔ m.Fails r sources e := by
    intro m hm
    obtain ⟨expression, hvalue, hwell⟩ := h _ (mem_dynamicMembers_of_mem_entries hm)
    exact Entry.render_eq_error_iff_fails hvalue hwell
  constructor
  · rintro ⟨before, m, after, hsplit, hbefore, hm⟩
    exact ⟨before, m, after, hsplit, hbefore, (hentry m (by simp [hsplit])).1 hm⟩
  · rintro ⟨before, m, after, hsplit, hbefore, hm⟩
    exact ⟨before, m, after, hsplit, hbefore, (hentry m (by simp [hsplit])).2 hm⟩

end Template

/-! ## Machines -/

theorem Machine.template_wellFormed {settings : Settings.Validation} {d : Definition} {m : Machine}
    (hm : ofDefinition settings d = .ok m) {path : Validation.Place} {g : Graph}
    (hg : m.definition.graph.Inside path g) {name : String} {s : State}
    (hs : (name, s) ∈ g.states) {t : Json} (ht : t ∈ s.templates) {limit : Nat}
    (hle : settings.maxIntrinsicDepth ≤ limit) : Template.WellFormed limit t := by
  obtain ⟨hd, hvalid⟩ := of_ofDefinition hm
  rw [hd] at hg
  have hstate := (Validation.wellFormed_of_problems hvalid hg).state name s hs
  exact (hstate.template ht).mono hle

/-- **A template of a machine fails only for what the documents hold**, and as the first of its
entries that does: the definition is not at fault, and every call is read as one, if the functions
may be nested as deep as the check allows. -/
theorem Machine.render_fails_iff {settings : Settings.Validation} {d : Definition} {m : Machine}
    (hm : ofDefinition settings d = .ok m) {path : Validation.Place} {g : Graph}
    (hg : m.definition.graph.Inside path g) {name : String} {s : State}
    (hs : (name, s) ∈ g.states) {t : Json} (ht : t ∈ s.templates) (limits : Settings.Calls)
    (hle : settings.maxIntrinsicDepth ≤ limits.maxNestingDepth) (entropy : UInt64)
    (sources : Path.Sources) (e : Template.Error) :
    (Template.render (.standard limits) entropy sources t = .error e ↔
      ∃ before m after, Template.entries entropy t = before ++ m :: after ∧
        (∀ x ∈ before, ∃ v, x.render (.standard limits) sources = .ok v) ∧
        m.Fails (.standard limits) sources e) ∧
    (Template.render (.standard limits) entropy sources t = .error e →
      (Error.template e).kind ≠ .invalidDefinition ∧
        ∀ text d, e ≠ .call (.malformed text d)) := by
  have hwell : Template.WellFormed (Registry.standard limits).limits.maxNestingDepth t :=
    template_wellFormed hm hg hs ht hle
  refine ⟨hwell.render_eq_error_iff_fails, fun he => ?_⟩
  obtain ⟨-, m, -, -, -, hm⟩ := hwell.render_eq_error_iff_fails.1 he
  exact hm.blameless fun _ _ => Registry.standard_isPlain

namespace Machine

/-- A sum, a name out of the context, and one out of the input. -/
def order : Json :=
  .array [.object [("sum.$", .string "States.MathAdd($.net, 1)")],
    .object [("by.$", .string "$$.Execution.Name"), ("to.$", .string "$.name")]]

/-- Work that is given an order. -/
def sending : Graph :=
  ⟨none, "Send", [
    ("Send", .task { resource := "mail", work := { parameters := some order },
                     exit := ⟨none, true⟩ })]⟩

/-- The work in a branch of a parallel state inside a map. -/
def delivery : Definition where
  graph := ⟨none, "Each", [
    ("Each", .map { exit := ⟨none, true⟩ } (some
      ⟨none, "Both", [("Both", .parallel { exit := ⟨none, true⟩ } [sending])]⟩))]⟩

theorem delivery_inside : delivery.graph.Inside
    [.state "Each", .iterator, .state "Both", .branch 0] sending :=
  .iterator (.head _) (.branch (i := 0) (.head _) rfl (.here sending))

/-- The name is missing in the context, the sum before it is there. -/
theorem delivery_render_fails :
    Template.render (.standard {}) 0
        ⟨.object [("name", .string "Ada"), ("net", .number (.ofInt 2))], .object []⟩ order =
      .error (.missingPath "$$.Execution.Name") ∧
    (Error.template (.missingPath "$$.Execution.Name")).kind ≠ .invalidDefinition := by
  have hvalid : Validation.problems {} delivery = [] :=
    Validation.problems_eq_nil_iff.2 ⟨by decide +kernel, fun _ => by cbv⟩
  have hentries : Template.entries 0 order =
      [⟨Handler.inner (Handler.inner 0 0) 0, "sum.$", .string "States.MathAdd($.net, 1)"⟩] ++
        ⟨Handler.inner (Handler.inner 0 1) 1, "by.$", .string "$$.Execution.Name"⟩ ::
        [⟨Handler.inner (Handler.inner 0 1) 0, "to.$", .string "$.name"⟩] := by rfl
  obtain ⟨hfails, hblameless⟩ := render_fails_iff (ofDefinition_of_valid hvalid) delivery_inside
    (.head _) (List.mem_singleton_self order) {} (by decide) 0
    ⟨.object [("name", .string "Ada"), ("net", .number (.ofInt 2))], .object []⟩
    (.missingPath "$$.Execution.Name")
  have hrender := hfails.2 ⟨_, _, _, hentries, fun x hx => ?_, .path rfl (by decide) (by cbv)⟩
  · exact ⟨hrender, (hblameless hrender).1⟩
  · obtain rfl := List.mem_singleton.1 hx
    exact ⟨.number (.ofInt 3), by decide +kernel⟩

end Machine

end StatesLang
