import StatesLang.Proofs.Evaluation.Calls

/-!
# Evaluation is strict

A function is handed the parameters of its call as they stand and could leave some of them alone.
The standard functions do not: where one of them gives a value, all parameters have values, whatever
their positions.

* `Handler.IsStrict`: a function that needs the values of all parameters.
* **`Builtin.isStrict_standard`**: every standard function does.
* `Registry.Answers`: a function is there for a call, and its paths and decimals have values.
* **`Registry.answers_of_call`**: this holds of every call inside a call that succeeds.
-/

namespace StatesLang

namespace Handler

/-- A function that gives a value only if all parameters of its call have values. -/
structure IsStrict (h : Handler) : Prop where
  resolves : ∀ {c s v}, h c s = .ok v → ∀ i p, c.params[i]? = some p → ∃ w, s.resolve i p = .ok w

namespace Scope

variable {s : Scope}

theorem resolveFrom_eq_ok : {ps : List Call.Param} → {position : Nat} → {vs : List Json} →
    s.resolveFrom position ps = .ok vs → ∀ i p, ps[i]? = some p →
      ∃ v, vs[i]? = some v ∧ s.resolve (position + i) p = .ok v
  | [], _, _, _ => nofun
  | p :: ps, position, vs, h => by
    rw [resolveFrom, Decode.bind_eq_ok] at h
    obtain ⟨v, hv, h⟩ := h
    obtain ⟨rest, hrest, h⟩ := Decode.bind_eq_ok.1 h
    cases h
    intro i q hq
    cases i with
    | zero =>
      cases hq
      exact ⟨v, rfl, hv⟩
    | succ i =>
      rw [Nat.add_comm i 1, ← Nat.add_assoc, Nat.add_comm 1 i]
      exact resolveFrom_eq_ok hrest i q hq

theorem resolveAll_eq_ok {c : Call} {vs : List Json} (h : s.resolveAll c = .ok vs) {i : Nat}
    {p : Call.Param} (hp : c.params[i]? = some p) :
    ∃ v, vs[i]? = some v ∧ s.resolve i p = .ok v := by
  simpa only [Nat.zero_add] using resolveFrom_eq_ok h i p hp

end Scope

end Handler

/-! ## The standard functions -/

namespace Builtin

open Handler (IsStrict Scope)

theorem isStrict_of_arguments {h : Handler} {least : Nat} {most : Option Nat}
    {k : Call → Scope → List Json → Except Call.Error Json}
    (heq : ∀ c s, h c s = arguments least most c s >>= k c s) : h.IsStrict where
  resolves := by
    intro c s v hv i p hp
    rw [heq, arguments, Decode.bind_eq_ok] at hv
    obtain ⟨vs, hvs, -⟩ := hv
    split at hvs
    · obtain ⟨w, -, hw⟩ := Scope.resolveAll_eq_ok hvs hp
      exact ⟨w, hw⟩
    · cases hvs

theorem isStrict_unary {f : Call → Json → Except Call.Error Json} : (unary f).IsStrict :=
  isStrict_of_arguments fun _ _ => rfl

theorem isStrict_binary {f : Call → Json → Json → Except Call.Error Json} : (binary f).IsStrict :=
  isStrict_of_arguments fun _ _ => rfl

theorem isStrict_ternary
    {f : Call → Settings.Calls → Json → Json → Json → Except Call.Error Json} :
    (ternary f).IsStrict :=
  isStrict_of_arguments fun _ _ => rfl

theorem isStrict_ofParam {refusal : Call.Param → Option Call.Failure}
    {k : Call → Json → Except Call.Error Json} : (ofParam refusal k).IsStrict where
  resolves := by
    intro c s v hv i p hp
    unfold ofParam at hv
    split at hv
    · next q hq =>
      rw [hq] at hp
      cases hrefusal : refusal q with
      | some f =>
        rw [hrefusal] at hv
        cases hv
      | none =>
        rw [hrefusal] at hv
        obtain ⟨w, hw, -⟩ := Decode.bind_eq_ok.1 hv
        -- the one parameter is the one at the first position
        cases i with
        | zero =>
          cases hp
          exact ⟨w, hw⟩
        | succ i => cases hp
    · cases hv

/-- **Every standard function is strict.** -/
theorem isStrict_standard : ∀ f ∈ standard, f.2.IsStrict := by
  have hformat : format.IsStrict := isStrict_of_arguments fun _ _ => rfl
  have hrandom : mathRandom.IsStrict := isStrict_of_arguments fun _ _ => rfl
  have huuid : uuid.IsStrict := isStrict_of_arguments fun _ _ => rfl
  have harray : makeArray.IsStrict := isStrict_of_arguments makeArray_eq
  have htext : stringToJson.IsStrict := stringToJson_eq ▸ isStrict_ofParam
  have hpath : jsonToString.IsStrict := jsonToString_eq ▸ isStrict_ofParam
  simp only [standard, List.forall_mem_cons, List.not_mem_nil, IsEmpty.forall_iff, implies_true,
    and_true]
  exact ⟨hformat, htext, hpath, harray, isStrict_binary, isStrict_binary, isStrict_ternary,
    isStrict_binary, isStrict_unary, isStrict_unary, isStrict_unary, isStrict_unary,
    isStrict_binary, isStrict_ternary, hrandom, isStrict_binary, isStrict_binary, huuid⟩

end Builtin

/-! ## Calls in calls -/

namespace Registry

variable {r : Registry} {sources : Path.Sources}

/-- Every function of the registry is strict. -/
def IsStrict (r : Registry) : Prop :=
  ∀ ⦃name h⦄, r.find? name = some h → h.IsStrict

theorem standard_isStrict {limits : Settings.Calls} : (standard limits).IsStrict := by
  intro name h hh
  obtain ⟨before, after, hf, -⟩ := List.lookup_eq_some_iff.1 hh
  have hmem : (name, h) ∈ (standard limits).functions := hf ▸ List.mem_append_cons_self
  exact Builtin.isStrict_standard _ hmem

/-- There is a function for a call, every path among its parameters starts with `$` and selects a
value, and every decimal is finite. -/
structure Answers (r : Registry) (sources : Path.Sources) (c : Call) : Prop where
  function : r.contains c.name = true
  rooted : ∀ text, .path text ∈ c.params → text.toList.head? = some '$'
  paths : ∀ text, .path text ∈ c.params → ∃ v, sources.select? text = some v
  decimals : ∀ x, .decimal x ∈ c.params → ∃ y, x = .finite y

theorem resolvePath_eq_ok {text : String} {v : Json} :
    resolvePath sources text = .ok v ↔ sources.select? text = some v := by
  unfold resolvePath Path.Sources.select?
  cases Path.scoped? text with
  | none => simp
  | some place =>
    cases hv : sources.select place.1 place.2 with
    | none => simp [hv]
    | some w => simp [hv]

theorem resolveDecimal_eq_ok {x : Extended} {v : Json} (h : resolveDecimal x = .ok v) :
    ∃ y, x = .finite y := by
  cases x with
  | finite y => exact ⟨y, rfl⟩
  | infinite | notANumber => cases h

end Registry

theorem Path.head_of_select {sources : Path.Sources} {text : String} {v : Json}
    (h : sources.select? text = some v) : text.toList.head? = some '$' := by
  unfold Path.Sources.select? Path.scoped? at h
  split at h
  · next hscoped =>
    split at hscoped
    · next he => rw [he]; rfl
    · next he => rw [he]; rfl
    · cases hscoped
  · cases h

namespace Registry

variable {r : Registry} {sources : Path.Sources}

theorem answers_of_resolves {call : Nat → Call → Except Call.Error Json} {c : Call}
    (hname : r.contains c.name = true)
    (h : ∀ i p, c.params[i]? = some p → ∃ v, resolveParam sources (call i) p = .ok v) :
    r.Answers sources c where
  function := hname
  rooted text ht := by
    obtain ⟨i, hi⟩ := List.mem_iff_getElem?.1 ht
    obtain ⟨v, hv⟩ := h i _ hi
    exact Path.head_of_select (resolvePath_eq_ok.1 hv)
  paths text ht := by
    obtain ⟨i, hi⟩ := List.mem_iff_getElem?.1 ht
    obtain ⟨v, hv⟩ := h i _ hi
    exact ⟨v, resolvePath_eq_ok.1 hv⟩
  decimals x hx := by
    obtain ⟨i, hi⟩ := List.mem_iff_getElem?.1 hx
    obtain ⟨v, hv⟩ := h i _ hi
    exact resolveDecimal_eq_ok hv

/-- What succeeds at one level has parameters that succeed, those that are calls with less fuel. -/
theorem answers_of_invoke (hr : r.IsStrict) : (fuel : Nat) → {entropy : UInt64} → {c d : Call} →
    {v : Json} → r.invoke sources fuel entropy c = .ok v → c.Part d → r.Answers sources d
  | 0, _, _, _, _, h, _ => by
    rw [invoke] at h
    cases h
  | fuel + 1, entropy, c, d, v, h, hd => by
    rw [invoke] at h
    split at h
    · cases h
    · next f hf =>
      have hparams := (hr hf).resolves h
      cases hd with
      | self => exact answers_of_resolves (Option.isSome_iff_exists.2 ⟨f, hf⟩) hparams
      | param hin hd =>
        obtain ⟨i, hi⟩ := List.mem_iff_getElem?.1 hin
        obtain ⟨w, hw⟩ := hparams i _ hi
        exact answers_of_invoke hr fuel hw hd

/-- **Evaluation is strict.** In a call that succeeds, every call at any depth has a function, its
paths start with `$` and select values, and its decimals are finite. So none of them is left out. -/
theorem answers_of_call (limits : Settings.Calls) {entropy : UInt64} {c : Call}
    {sources : Path.Sources} {v : Json} (h : (standard limits).call entropy c sources = .ok v) :
    ∀ d, c.Part d → (standard limits).Answers sources d :=
  fun _ hd => answers_of_invoke standard_isStrict _ h hd

/-- The sum of a member of the input and a decimal. -/
def summing : Call :=
  ⟨"States.MathAdd", [.path "$.net", .decimal (.finite (.zero false))]⟩

/-- The sum stands two calls deep in a call that succeeds. -/
theorem summing_answers :
    (standard {}).call 0
        ⟨"States.Array", [.path "$$.who", .call ⟨"States.Array", [.null, .call summing]⟩]⟩
        ⟨.object [("net", .number (.ofInt 2))], .object [("who", .string "Ada")]⟩ =
      .ok (.array [.string "Ada", .array [.null, .number (.real (.ofInt 2))]]) ∧
    (standard {}).Answers
      ⟨.object [("net", .number (.ofInt 2))], .object [("who", .string "Ada")]⟩ summing := by
  have hvalue : (standard {}).call 0
      ⟨"States.Array", [.path "$$.who", .call ⟨"States.Array", [.null, .call summing]⟩]⟩
      ⟨.object [("net", .number (.ofInt 2))], .object [("who", .string "Ada")]⟩ =
    .ok (.array [.string "Ada", .array [.null, .number (.real (.ofInt 2))]]) := by decide +kernel
  have hinner : Call.Part ⟨"States.Array", [.null, .call summing]⟩ summing :=
    .param (List.mem_cons_of_mem _ (List.mem_singleton_self _)) (.self _)
  exact ⟨hvalue, answers_of_call {} hvalue summing
    (.param (List.mem_cons_of_mem _ (List.mem_singleton_self _)) hinner)⟩

end Registry

end StatesLang
