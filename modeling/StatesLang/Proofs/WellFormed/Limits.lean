import Mathlib
import StatesLang.Proofs.Structure

/-!
# Limits of the check

The settings of the check are limits: how deep graphs and calls may be nested, and whether terminal
states must be within reach.

* `Call.IsCall.mono`, `Template.WellFormed.mono`, `Graph.WellFormed.mono`: what keeps the rules
  under one limit on the nesting of calls keeps them under any larger one.
* **`Validation.accepted_of_relaxed`**: relaxing the settings rejects no definition.
-/

namespace StatesLang

variable {limit limit' : Nat}

/-! ## Nesting of calls -/

/-- Whether a text is read as a call depends on the limit only by the nesting of the call. -/
theorem Call.IsCall.mono (hle : limit ≤ limit') {text : String} (h : Call.IsCall limit text) :
    Call.IsCall limit' text := by
  obtain ⟨c, hc⟩ := h
  obtain ⟨htext, hn⟩ := Call.parse_eq_ok.1 hc
  exact ⟨c, Call.parse_eq_ok.2 ⟨htext, Nat.le_trans hn hle⟩⟩

theorem Template.IsExpression.mono (hle : limit ≤ limit') {text : String}
    (h : Template.IsExpression limit text) : Template.IsExpression limit' text := by
  unfold Template.IsExpression at h ⊢
  split_ifs at h ⊢ with hpath
  · exact h
  · exact h.mono hle

theorem Template.WellFormed.mono (hle : limit ≤ limit') {t : Json}
    (h : Template.WellFormed limit t) : Template.WellFormed limit' t := by
  intro m hm
  obtain ⟨expression, hvalue, he⟩ := h m hm
  exact ⟨expression, hvalue, he.mono hle⟩

namespace State

theorem Work.WellFormed.mono (hle : limit ≤ limit') {w : Work} (h : w.WellFormed limit) :
    w.WellFormed limit' where
  resultPath := h.resultPath
  parameters t ht := (h.parameters t ht).mono hle
  resultSelector t ht := (h.resultSelector t ht).mono hle

theorem Fail.IsDynamic.mono (hle : limit ≤ limit') {text : String}
    (h : Fail.IsDynamic limit text) : Fail.IsDynamic limit' text :=
  h.imp_right fun ⟨hno, hcall⟩ => ⟨hno, hcall.mono hle⟩

theorem WellFormed.mono (hle : limit ≤ limit') {g : Graph} {s : State}
    (h : s.WellFormed limit g) : s.WellFormed limit' g := by
  cases s with
  | task t => exact { h with work := h.work.mono hle }
  | pass p => exact { h with parameters := fun t ht => (h.parameters t ht).mono hle }
  | choice c => exact h
  | wait w => exact h
  | succeed s => exact h
  | fail f =>
    exact { h with
      errorPath := fun text ht => (h.errorPath text ht).mono hle
      causePath := fun text ht => (h.causePath text ht).mono hle }
  | parallel p branches => exact ⟨h.1, { h.2 with work := h.2.work.mono hle }⟩
  | map m iterator => exact ⟨h.1, { h.2 with work := h.2.work.mono hle }⟩

end State

theorem Graph.WellFormed.mono (hle : limit ≤ limit') {g : Graph} (h : g.WellFormed limit) :
    g.WellFormed limit' where
  nonempty := h.nonempty
  start := h.start
  state name s hs := (h.state name s hs).mono hle

/-! ## Settings -/

namespace Validation

variable {settings settings' : Settings.Validation} {d : Definition}

/-- **Relaxing the settings rejects no definition.** A definition that is accepted under some limits
on the nesting of graphs and calls is accepted under any larger ones, and without the search for
terminal states if that is left out. -/
theorem accepted_of_relaxed (hbranch : settings.maxBranchDepth ≤ settings'.maxBranchDepth)
    (hcall : settings.maxIntrinsicDepth ≤ settings'.maxIntrinsicDepth)
    (hreach : settings'.checkReachability = true → settings.checkReachability = true)
    (h : problems settings d = []) : problems settings' d = [] := by
  obtain ⟨hs, hr⟩ := problems_eq_nil_iff.1 h
  obtain ⟨htime, hgraphs⟩ := structureProblems_eq_nil_iff_graphs.1 hs
  refine problems_eq_nil_iff.2 ⟨structureProblems_eq_nil_iff_graphs.2 ⟨htime, ?_⟩,
    fun h' => hr (hreach h')⟩
  intro path g hg
  obtain ⟨hwell, hdepth⟩ := hgraphs path g hg
  exact ⟨hwell.mono hcall, Nat.le_trans hdepth hbranch⟩

/-- A template with a call inside a call. -/
def boxed : Json :=
  .object [("all.$", .string "States.Array(States.Array($.a))")]

/-- Work inside a map, with such parameters. -/
def relay : Definition where
  graph := ⟨none, "Each", [
    ("Each", .map { exit := ⟨none, true⟩ } (some
      ⟨none, "Send", [
        ("Send", .task { resource := "mail", work := { parameters := some boxed },
                         exit := ⟨none, true⟩ })]⟩))]⟩

theorem relay_accepted :
    problems { maxBranchDepth := 1, maxIntrinsicDepth := 2 } relay = [] ∧
      problems { checkReachability := false, maxBranchDepth := 5, maxIntrinsicDepth := 3 } relay =
        [] := by
  have h : problems { maxBranchDepth := 1, maxIntrinsicDepth := 2 } relay = [] :=
    problems_eq_nil_iff.2 ⟨by decide +kernel, fun _ => by cbv⟩
  exact ⟨h, accepted_of_relaxed (by decide) (by decide) (by decide) h⟩

end Validation

end StatesLang
