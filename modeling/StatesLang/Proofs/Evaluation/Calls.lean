import StatesLang.Error
import StatesLang.Proofs.Evaluation.Handlers
import StatesLang.Proofs.Grammar.Call

/-!
# What calls depend on

The calls of a registry of plain functions are evaluated from the inside out, so that what holds of
single functions holds of calls in calls.

* `Call.Part`: a call and those inside it; `Call.IsRandom`: a call whose value is random.
* `Path.Sources.select?`: what a path expression selects.
* `Registry.call_congr`: two documents that agree on the paths of a call give it the same value.
* `Registry.call_congr_of_shares`: so do two registries with the same functions for it.
* `Registry.call_eq_error`: a call fails as one of its functions does, or for want of a function, or
  for want of addresses.
-/

namespace StatesLang

/-! ## Calls in calls -/

namespace Call

/-- A call and the calls among its parameters, at any depth. -/
inductive Part : Call → Call → Prop
  | self (c : Call) : Part c c
  | param {c d e : Call} (hd : Param.call d ∈ c.params) (he : Part d e) : Part c e

/-- The value of the call is random, whatever those of its parameters are. -/
def IsRandom (c : Call) : Prop :=
  Builtin.Draws c.name c.params.length

theorem nesting_le_paramsNesting : {ps : List Param} → {p : Param} → p ∈ ps →
    p.nesting ≤ paramsNesting ps
  | q :: ps, p, hp => by
    rw [paramsNesting]
    obtain rfl | hp := List.mem_cons.1 hp
    · exact Nat.le_max_left _ _
    · exact Nat.le_trans (nesting_le_paramsNesting hp) (Nat.le_max_right _ _)

theorem nesting_lt_of_mem {c d : Call} (hd : Param.call d ∈ c.params) : d.nesting < c.nesting := by
  obtain ⟨name, params⟩ := c
  have hle := nesting_le_paramsNesting hd
  rw [Param.nesting] at hle
  rw [nesting]
  exact Nat.lt_succ_of_le hle

/-- What comes out of the evaluation of a call instead of a value. Other errors are those of texts
that are no calls, and of functions of one's own. It breaks off only where the limit lets a range in
it get longer than any array. -/
inductive Error.IsOfEvaluation (limits : Settings.Calls) (c : Call) : Error → Prop
  | failed (text : String) (f : Failure) : IsOfEvaluation limits c (.failed text f)
  | unknown (name : String) : IsOfEvaluation limits c (.unknown name)
  | oversized {d : Call} (hd : c.Part d) (hgrows : Builtin.Grows d.name)
    (hlimit : Builtin.capacity < limits.maxArrayRangeItems) : IsOfEvaluation limits c .oversized

theorem Error.IsOfEvaluation.kind_ne {limits : Settings.Calls} {c : Call} {e : Error}
    (h : e.IsOfEvaluation limits c) : StatesLang.Error.callKind e ≠ .invalidDefinition := by
  cases h <;> nofun

theorem Error.IsOfEvaluation.param {limits : Settings.Calls} {c d : Call} {e : Error}
    (hd : .call d ∈ c.params) (h : e.IsOfEvaluation limits d) : e.IsOfEvaluation limits c := by
  cases h with
  | failed text f => exact .failed text f
  | unknown name => exact .unknown name
  | oversized he hgrows hlimit => exact .oversized (.param hd he) hgrows hlimit

end Call

/-- What a path expression selects. -/
def Path.Sources.select? (d : Sources) (text : String) : Option Json :=
  match scoped? text with
  | some (source, path) => d.select source path
  | none => none

namespace Registry

/-- Every function of the registry is plain, and draws only where the standard functions do. -/
def IsPlain (r : Registry) : Prop :=
  ∀ ⦃name h⦄, r.find? name = some h → h.IsPlain (Builtin.Draws name) (Builtin.Grows name)

variable {r r' : Registry} {sources sources' : Path.Sources}

/-! ## Agreement -/

theorem resolvePath_congr {text : String} (h : sources.select? text = sources'.select? text) :
    resolvePath sources text = resolvePath sources' text := by
  unfold Path.Sources.select? at h
  unfold resolvePath
  split
  · rfl
  · next source path hscoped =>
    simp only [hscoped] at h
    rw [h]

/-- Two documents and two sources of chance agree on a call. -/
structure AgreeOn (sources sources' : Path.Sources) (entropy entropy' : UInt64) (c : Call) :
    Prop where
  paths : ∀ d, c.Part d → ∀ text, .path text ∈ d.params →
    sources.select? text = sources'.select? text
  chance : entropy = entropy' ∨ ∀ d, c.Part d → ¬ d.IsRandom

theorem AgreeOn.param {entropy entropy' : UInt64} {c d : Call}
    (h : AgreeOn sources sources' entropy entropy' c) (hd : .call d ∈ c.params) (position : Nat) :
    AgreeOn sources sources' (Handler.inner entropy position) (Handler.inner entropy' position) d
    where
  paths e he := h.paths e (.param hd he)
  chance := h.chance.imp (fun he => by rw [he]) fun hn e he => hn e (.param hd he)

/-- Two registries have the same limits, and for a call and the calls inside it the same functions,
which are plain. -/
structure Shares (r r' : Registry) (c : Call) : Prop where
  limits : r.limits = r'.limits
  find : ∀ d, c.Part d → r.find? d.name = r'.find? d.name
  plain : ∀ d, c.Part d → ∀ ⦃h⦄, r'.find? d.name = some h →
    h.IsPlain (Builtin.Draws d.name) (Builtin.Grows d.name)

theorem Shares.param {c d : Call} (h : r.Shares r' c) (hd : .call d ∈ c.params) :
    r.Shares r' d where
  limits := h.limits
  find e he := h.find e (.param hd he)
  plain e he := h.plain e (.param hd he)

theorem IsPlain.shares (hr : r.IsPlain) (c : Call) : r.Shares r c :=
  ⟨rfl, fun _ _ => rfl, fun _ _ _ hh => hr hh⟩

/-- As far as the fuel is enough for the nesting of a call, it does not matter how much there is. -/
theorem invoke_congr : (fuel fuel' : Nat) → {entropy entropy' : UInt64} → {c : Call} →
    c.nesting ≤ fuel → c.nesting ≤ fuel' → r.Shares r' c →
    AgreeOn sources sources' entropy entropy' c →
      r.invoke sources fuel entropy c = r'.invoke sources' fuel' entropy' c
  | 0, _, _, _, c, hn, _, _, _ | _ + 1, 0, _, _, c, _, hn, _, _ =>
    absurd hn (Nat.not_le.2 (Call.nesting_pos c))
  | fuel + 1, fuel' + 1, entropy, entropy', c, hn, hn', hr, h => by
    rw [invoke, invoke, hr.find c (.self c)]
    split
    · rfl
    · next f hf =>
      refine (hr.plain c (.self c) hf).congr ⟨hr.limits, fun i p hp => ?_⟩
        (h.chance.imp_right fun hn => hn c (.self c))
      have hmem := List.mem_of_getElem? hp
      -- of the kinds of parameters only paths and calls depend on the documents
      cases p with
      | path text => exact resolvePath_congr (h.paths c (.self c) text hmem)
      | call d =>
        have hlt := Call.nesting_lt_of_mem hmem
        exact invoke_congr fuel fuel' (by omega) (by omega) (hr.param hmem) (h.param hmem i)
      | null | boolean | string | int | decimal => simp only [resolveParam]

theorem nesting_le_callDepth (c : Call) : c.nesting ≤ r.callDepth c :=
  Nat.le_mul_of_pos_right _ (Nat.succ_pos _)

theorem callDepth_pos (c : Call) : 0 < r.callDepth c :=
  Nat.lt_of_lt_of_le (Call.nesting_pos c) (nesting_le_callDepth c)

/-- **A call has the same value in registries that share its functions**, whatever else they hold,
where documents agree on its paths. -/
theorem call_congr_of_shares {entropy entropy' : UInt64} {c : Call} (hr : r.Shares r' c)
    (h : AgreeOn sources sources' entropy entropy' c) :
    r.call entropy c sources = r'.call entropy' c sources' :=
  invoke_congr _ _ (nesting_le_callDepth c) (nesting_le_callDepth c) hr h

/-- **Where documents agree on the paths of a call, the value of the call is the same.** -/
theorem call_congr (hr : r.IsPlain) {entropy entropy' : UInt64} {c : Call}
    (h : AgreeOn sources sources' entropy entropy' c) :
    r.call entropy c sources = r.call entropy' c sources' :=
  call_congr_of_shares (hr.shares c) h

/-! ## Errors -/

theorem resolvePath_eq_error {limits : Settings.Calls} {c : Call} {text : String} {e : Call.Error}
    (h : resolvePath sources text = .error e) : e.IsOfEvaluation limits c := by
  unfold resolvePath at h
  split at h
  · cases h
    exact .failed _ _
  · split at h
    · cases h
    · cases h
      exact .failed _ _

theorem resolveDecimal_eq_error {limits : Settings.Calls} {c : Call} {x : Extended}
    {e : Call.Error} (h : resolveDecimal x = .error e) : e.IsOfEvaluation limits c := by
  unfold resolveDecimal at h
  split at h
  · cases h
  · cases h
    exact .failed _ _

/-- One level of functions calling each other is enough for each level of the call. -/
theorem invoke_eq_error (hr : r.IsPlain) : (fuel : Nat) → {entropy : UInt64} → {c : Call} →
    {e : Call.Error} → c.nesting ≤ fuel → r.invoke sources fuel entropy c = .error e →
      e.IsOfEvaluation r.limits c
  | 0, _, c, _, hn, _ => absurd hn (Nat.not_le.2 (Call.nesting_pos c))
  | fuel + 1, entropy, c, e, hn, he => by
    rw [invoke] at he
    split at he
    · cases he
      exact .unknown _
    · next f hf =>
      obtain ⟨failure, rfl⟩ | ⟨rfl, hgrows, hlimit⟩ | ⟨i, p, hp, he⟩ := (hr hf).error he
      · exact .failed _ _
      · exact .oversized (.self c) hgrows hlimit
      · have hmem := List.mem_of_getElem? hp
        cases p with
        | null | boolean | string | int => cases he
        | decimal x => exact resolveDecimal_eq_error he
        | path text => exact resolvePath_eq_error he
        | call d =>
          -- a call among the parameters is nested less deep, so the rest of the fuel is enough
          have hlt := Call.nesting_lt_of_mem hmem
          exact (invoke_eq_error hr fuel (by omega) he).param hmem

/-- **A call fails in evaluation only**: one of its functions fails, or there is none of a name, or
a range gets too long for any array. -/
theorem call_eq_error (hr : r.IsPlain) {entropy : UInt64} {c : Call} {e : Call.Error}
    (h : r.call entropy c sources = .error e) : e.IsOfEvaluation r.limits c :=
  invoke_eq_error hr _ (nesting_le_callDepth c) h

end Registry

end StatesLang
