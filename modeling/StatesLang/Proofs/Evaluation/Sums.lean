import StatesLang.Proofs.Evaluation.Strict
import StatesLang.Proofs.Evaluation.Values

/-!
# Sums of integers

Calls of `States.MathAdd` inside each other add up integers. Two signed integers of 64 bits are
added exactly, or not at all. An unsigned integer beyond these is added as a double, and so is
whatever a double is added to.

* `Builtin.Addends`: integers put together by sums of two.
* `Builtin.Adds`: the parameters that write them.
* `Builtin.Addends.Yields`: what can come of them.
* **`Builtin.sum_exact_iff`**: a sum is exact or fails exactly if all its integers are signed ones
  of 64 bits.
-/

namespace StatesLang.Builtin

/-- Integers put together by sums of two. -/
inductive Addends
  | leaf (n : WideInt)
  | sum (a b : Addends)

namespace Addends

/-- The exact sum of all integers. -/
def total : Addends → Int
  | leaf n => n.1
  | sum a b => a.total + b.total

/-- All integers are signed ones of 64 bits. -/
def IsSigned : Addends → Prop
  | leaf n => n.1 < 0x8000000000000000
  | sum a b => a.IsSigned ∧ b.IsSigned

/-- The sum of every two is a signed integer of 64 bits. -/
def Fits : Addends → Prop
  | leaf _ => True
  | sum a b => a.Fits ∧ b.Fits ∧
      -0x8000000000000000 ≤ a.total + b.total ∧ a.total + b.total < 0x8000000000000000

theorem total_bounds : {t : Addends} → t.IsSigned → t.Fits →
    -0x8000000000000000 ≤ t.total ∧ t.total < 0x8000000000000000
  | leaf n, hsigned, _ => ⟨n.2.1, hsigned⟩
  | sum _ _, _, hfits => hfits.2.2

end Addends

/-- A parameter that adds up integers: one of them, as a literal or selected by a path, or the sum
of two such parameters. -/
inductive Adds (sources : Path.Sources) : Call.Param → Addends → Prop
  | int {n : Int64} {m : WideInt} (h : m.1 = n.toInt) : Adds sources (.int n) (.leaf m)
  | path {text : String} {m : WideInt} (h : sources.select? text = some (.number (.int m))) :
    Adds sources (.path text) (.leaf m)
  | call {p q : Call.Param} {a b : Addends} (hp : Adds sources p a) (hq : Adds sources q b) :
    Adds sources (.call ⟨"States.MathAdd", [p, q]⟩) (.sum a b)

/-! ## The sum of two -/

section Sum

variable {x y z : Json.Number} {m n : Int}

theorem sum_of_int64 (hx : x.int64? = some m) (hy : y.int64? = some n) :
    sum x y = if -0x8000000000000000 ≤ m + n ∧ m + n < 0x8000000000000000
      then .ok (.ofInt (m + n)) else .error .overflow := by
  unfold sum
  rw [hx, hy]

/-- Where not both are signed integers, the sum is a double. -/
theorem exists_real_of_sum (hnone : x.int64? = none ∨ y.int64? = none) (h : sum x y = .ok z) :
    ∃ r, z = .real r := by
  unfold sum at h
  split at h
  · next hx hy =>
    rw [hx, hy] at hnone
    exact absurd hnone (by simp)
  · split at h
    · cases h
      exact ⟨_, rfl⟩
    · cases h

theorem mathAdd_of_params {s : Handler.Scope} {name : String} {p q : Call.Param}
    (hx : s.resolve 0 p = .ok (.number x)) (hy : s.resolve 1 q = .ok (.number y)) :
    mathAdd ⟨name, [p, q]⟩ s = match sum x y with
      | .ok z => .ok (.number z)
      | .error f => fail ⟨name, [p, q]⟩ f := by
  rw [mathAdd, binary_of_params, hx, hy]
  rfl

end Sum

/-! ## What comes of sums -/

/-- What comes of integers that are added up: the exact sum or an overflow if all are signed, and no
integer if it is more than one and not all are signed. -/
structure Addends.Yields (t : Addends) (x : Except Call.Error Json) : Prop where
  exact : t.IsSigned → t.Fits → x = .ok (.number (.ofInt t.total))
  overflow : t.IsSigned → ¬ t.Fits → ∃ c : Call, x = .error (.failed c.render .overflow)
  rounded : ¬ t.IsSigned → ∀ v, x = .ok v →
    (∃ n : WideInt, t = .leaf n ∧ v = .number (.int n)) ∨ ∃ r, v = .number (.real r)

namespace Addends.Yields

variable {t a b : Addends} {x : Except Call.Error Json} {s : Handler.Scope} {name : String}
  {p q : Call.Param}

theorem leaf (n : WideInt) : (Addends.leaf n).Yields (.ok (.number (.int n))) where
  exact _ _ := by rw [total, Json.Number.ofInt_val]
  overflow _ hno := absurd trivial hno
  rounded _ v hv := by
    cases hv
    exact .inl ⟨n, rfl, rfl⟩

theorem int64?_eq_none (h : t.Yields x) (hno : ¬ t.IsSigned) {v : Json} (hv : x = .ok v) :
    ∃ n : Json.Number, v = .number n ∧ n.int64? = none := by
  rcases h.rounded hno v hv with ⟨n, rfl, rfl⟩ | ⟨r, rfl⟩
  · exact ⟨_, rfl, if_neg hno⟩
  · exact ⟨_, rfl, rfl⟩

theorem exists_number (h : t.Yields x) {v : Json} (hv : x = .ok v) :
    ∃ n : Json.Number, v = .number n := by
  by_cases hsigned : t.IsSigned
  · by_cases hfits : t.Fits
    · rw [h.exact hsigned hfits] at hv
      cases hv
      exact ⟨_, rfl⟩
    · obtain ⟨c, hc⟩ := h.overflow hsigned hfits
      rw [hc] at hv
      cases hv
  · obtain ⟨n, rfl, -⟩ := h.int64?_eq_none hsigned hv
    exact ⟨n, rfl⟩

theorem mathAdd_of_fits (hp : a.Yields (s.resolve 0 p)) (hq : b.Yields (s.resolve 1 q))
    (hsigned : a.IsSigned ∧ b.IsSigned) (ha : a.Fits) (hb : b.Fits) :
    Builtin.mathAdd ⟨name, [p, q]⟩ s =
      if -0x8000000000000000 ≤ a.total + b.total ∧ a.total + b.total < 0x8000000000000000
      then .ok (.number (.ofInt (a.total + b.total)))
      else fail ⟨name, [p, q]⟩ .overflow := by
  have hm := total_bounds hsigned.1 ha
  have hn := total_bounds hsigned.2 hb
  rw [mathAdd_of_params (hp.exact hsigned.1 ha) (hq.exact hsigned.2 hb),
    sum_of_int64 (Json.Number.int64?_ofInt hm.1 hm.2) (Json.Number.int64?_ofInt hn.1 hn.2)]
  by_cases hrange : -0x8000000000000000 ≤ a.total + b.total ∧
      a.total + b.total < 0x8000000000000000
  · rw [if_pos hrange, if_pos hrange]
  · rw [if_neg hrange, if_neg hrange]

theorem mathAdd (hp : a.Yields (s.resolve 0 p)) (hq : b.Yields (s.resolve 1 q)) :
    (Addends.sum a b).Yields (mathAdd ⟨name, [p, q]⟩ s) where
  exact hsigned hfits := by
    obtain ⟨ha, hb, hrange⟩ := hfits
    rw [mathAdd_of_fits hp hq hsigned ha hb, if_pos hrange, total]
  overflow hsigned hno := by
    -- the first of the parts that does not fit stops the sum, else the sum of both does
    by_cases ha : a.Fits
    · by_cases hb : b.Fits
      · rw [mathAdd_of_fits hp hq hsigned ha hb, if_neg fun hrange => hno ⟨ha, hb, hrange⟩]
        exact ⟨_, rfl⟩
      · obtain ⟨c, hc⟩ := hq.overflow hsigned.2 hb
        rw [Builtin.mathAdd, binary_of_params, hp.exact hsigned.1 ha, hc]
        exact ⟨c, rfl⟩
    · obtain ⟨c, hc⟩ := hp.overflow hsigned.1 ha
      rw [Builtin.mathAdd, binary_of_params, hc]
      exact ⟨c, rfl⟩
  rounded hno v hv := by
    have hparts := hv
    rw [Builtin.mathAdd, binary_of_params, Decode.bind_eq_ok] at hparts
    obtain ⟨u, hu, hparts⟩ := hparts
    obtain ⟨w, hw, -⟩ := Decode.bind_eq_ok.1 hparts
    obtain ⟨x, rfl⟩ := hp.exists_number hu
    obtain ⟨y, rfl⟩ := hq.exists_number hw
    have hnone : x.int64? = none ∨ y.int64? = none := by
      by_cases ha : a.IsSigned
      · obtain ⟨n, he, hn⟩ := hq.int64?_eq_none (fun hb => hno ⟨ha, hb⟩) hw
        cases he
        exact .inr hn
      · obtain ⟨n, he, hn⟩ := hp.int64?_eq_none ha hu
        cases he
        exact .inl hn
    rw [mathAdd_of_params hu hw] at hv
    split at hv
    · next z hz =>
      cases hv
      obtain ⟨r, rfl⟩ := exists_real_of_sum hnone hz
      exact .inr ⟨r, rfl⟩
    · cases hv

end Addends.Yields

/-! ## Calls -/

/-- Fuel for each level of the parameter is enough. -/
theorem Adds.yields {limits : Settings.Calls} {sources : Path.Sources} {p : Call.Param}
    {t : Addends} (h : Adds sources p t) {fuel : Nat} {entropy : UInt64}
    (hfuel : p.nesting ≤ fuel) :
    t.Yields (Registry.resolveParam sources
      ((Registry.standard limits).invoke sources fuel entropy) p) := by
  induction h generalizing fuel entropy with
  | @int n m h =>
    rw [Registry.resolveParam, ← h, Json.Number.ofInt_val]
    exact .leaf m
  | @path text m h =>
    rw [Registry.resolveParam, Registry.resolvePath_eq_ok.2 h]
    exact .leaf m
  | @call p q a b hp hq ihp ihq =>
    simp only [Call.Param.nesting, Call.nesting, Call.paramsNesting] at hfuel
    obtain ⟨fuel, rfl⟩ : ∃ n, fuel = n + 1 := ⟨fuel - 1, by omega⟩
    rw [Registry.resolveParam, Registry.invoke_of_find rfl]
    exact .mathAdd (ihp (by omega)) (ihq (by omega))

/-- **A sum of integers is exact or fails exactly if all of them are signed ones of 64 bits**, or if
it fails anyway. Then it is exact if each partial sum is a signed integer of 64 bits, too, and
overflows if one is not. Where an integer is beyond these, a double comes of the sum. -/
theorem sum_exact_iff {limits : Settings.Calls} {entropy : UInt64} {sources : Path.Sources}
    {c : Call} {t : Addends} (h : Adds sources (.call c) t) :
    ((∀ v, (Registry.standard limits).call entropy c sources = .ok v →
        ∃ n : WideInt, v = .number (.int n) ∧ n.1 = t.total) ↔
      t.IsSigned ∨ ∀ v, (Registry.standard limits).call entropy c sources ≠ .ok v) ∧
    (t.IsSigned → t.Fits → ∃ n : WideInt,
      (Registry.standard limits).call entropy c sources = .ok (.number (.int n)) ∧
        n.1 = t.total) ∧
    (t.IsSigned → ¬ t.Fits → ∃ d : Call,
      (Registry.standard limits).call entropy c sources = .error (.failed d.render .overflow)) ∧
    (¬ t.IsSigned → ∀ v, (Registry.standard limits).call entropy c sources = .ok v →
      ∃ r, v = .number (.real r)) := by
  have hyields : t.Yields ((Registry.standard limits).call entropy c sources) :=
    h.yields (Registry.nesting_le_callDepth c)
  have hexact : t.IsSigned → t.Fits → ∃ n : WideInt,
      (Registry.standard limits).call entropy c sources = .ok (.number (.int n)) ∧
        n.1 = t.total := by
    intro hsigned hfits
    have hbounds := Addends.total_bounds hsigned hfits
    refine ⟨⟨t.total, by omega⟩, ?_, rfl⟩
    rw [hyields.exact hsigned hfits, ← Json.Number.ofInt_val]
  have hreal : ¬ t.IsSigned → ∀ v, (Registry.standard limits).call entropy c sources = .ok v →
      ∃ r, v = .number (.real r) := by
    intro hno v hv
    rcases hyields.rounded hno v hv with ⟨n, rfl, -⟩ | hr
    · -- a call is no single integer
      cases h
    · exact hr
  refine ⟨⟨fun hclaim => ?_, ?_⟩, hexact, hyields.overflow, hreal⟩
  · by_cases hsigned : t.IsSigned
    · exact .inl hsigned
    · refine .inr fun v hv => ?_
      obtain ⟨n, rfl, -⟩ := hclaim v hv
      obtain ⟨r, hr⟩ := hreal hsigned _ hv
      cases hr
  · rintro (hsigned | hfails) v hv
    · by_cases hfits : t.Fits
      · obtain ⟨n, hn, htotal⟩ := hexact hsigned hfits
        rw [hn] at hv
        cases hv
        exact ⟨n, rfl, htotal⟩
      · obtain ⟨d, hd⟩ := hyields.overflow hsigned hfits
        rw [hd] at hv
        cases hv
    · exact absurd hv (hfails v)

/-- A member of the input, one of the context and a literal. -/
def ledger : Call :=
  ⟨"States.MathAdd",
    [.call ⟨"States.MathAdd", [.path "$.paid", .path "$$.due"]⟩, .int (-1)]⟩

/-- Documents with an amount each. -/
def amounts (paid due : WideInt) : Path.Sources :=
  ⟨.object [("paid", .number (.int paid))], .object [("due", .number (.int due))]⟩

/-- What the ledger adds up. -/
def entries (paid due : WideInt) : Addends :=
  .sum (.sum (.leaf paid) (.leaf due)) (.leaf ⟨-1, by decide⟩)

theorem adds_ledger (paid due : WideInt) :
    Adds (amounts paid due) (.call ledger) (entries paid due) :=
  .call (.call (.path (by cbv)) (.path (by cbv))) (.int rfl)

/-- The greatest signed integer as a partial sum. -/
theorem ledger_exact :
    Adds (amounts ⟨9223372036854775800, by decide⟩ ⟨7, by decide⟩) (.call ledger)
      (entries ⟨9223372036854775800, by decide⟩ ⟨7, by decide⟩) ∧
    ∃ n : WideInt, (Registry.standard {}).call 0 ledger
        (amounts ⟨9223372036854775800, by decide⟩ ⟨7, by decide⟩) = .ok (.number (.int n)) ∧
      n.1 = 9223372036854775806 := by
  have hadds := adds_ledger ⟨9223372036854775800, by decide⟩ ⟨7, by decide⟩
  obtain ⟨-, hexact, -⟩ := @sum_exact_iff {} 0 _ _ _ hadds
  exact ⟨hadds, hexact (by simp [entries, Addends.IsSigned])
    (by simp [entries, Addends.Fits, Addends.total])⟩

/-- **A sum is rounded without notice** where an integer is beyond the signed ones. -/
theorem ledger_rounded :
    ∃ (sources : Path.Sources) (c : Call) (t : Addends) (v : Json),
      Adds sources (.call c) t ∧ (Registry.standard {}).call 0 c sources = .ok v ∧
        t.total = 9223372036854775809 ∧ v = .number (.real (.ofInt 9223372036854775808)) ∧
        ¬ ∃ n : WideInt, v = .number (.int n) ∧ n.1 = t.total :=
  ⟨amounts ⟨9223372036854775809, by decide⟩ ⟨1, by decide⟩, ledger, entries _ _, _,
    adds_ledger _ _, by decide +kernel, rfl, rfl, by rintro ⟨n, h, -⟩; cases h⟩

end StatesLang.Builtin
