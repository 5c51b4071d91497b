import Mathlib.Algebra.Group.Nat.Defs
import StatesLang.Proofs.Evaluation.Values

/-!
# The numbers of a range

A range is counted in 128 bits, since the distance of two numbers of 64 bits, and so the number of
steps between them, can have 65. Its numbers are made in 128 bits, too, and then cut to 64.

* `Builtin.Between`: the steps from one number that do not lead past another one.
* `Builtin.stepCount`, `Builtin.between_iff`: how many steps these are.
* `Builtin.Unwrapped`: whatever is computed for a range fits into the bits that it is given.
* **`Builtin.range_exact`**: a range has a number for each of these steps, if they are not too many.
* `Builtin.half_breaks`: they can be too many for an array, but not for the limit.
-/

namespace StatesLang.Builtin

/-! ## Steps -/

/-- So many steps from one number do not lead past another one. -/
def Between (start stop step : Int) (k : Nat) : Prop :=
  (0 < step ∧ start + k * step ≤ stop) ∨ (step < 0 ∧ stop ≤ start + k * step)

/-- The number of steps from one number that do not lead past another one. -/
def stepCount (start stop step : Int) : Nat :=
  if (0 < step ∧ start ≤ stop) ∨ (step < 0 ∧ stop ≤ start) then
    (stop - start).natAbs / step.natAbs + 1
  else 0

section Steps

variable {start stop step : Int}

/-- The steps that do not lead past a number come first. -/
theorem between_iff (hstep : step ≠ 0) (k : Nat) :
    Between start stop step k ↔ k < stepCount start stop step := by
  have hquotient : k ≤ (stop - start).natAbs / step.natAbs ↔
      k * step.natAbs ≤ (stop - start).natAbs :=
    Nat.le_div_iff_mul_le (by omega)
  have hproduct : ((k * step.natAbs : Nat) : Int) = k * (step.natAbs : Int) := Int.natCast_mul _ _
  unfold Between stepCount
  rcases Int.lt_or_lt_of_ne hstep with hneg | hpos
  · rw [Int.ofNat_natAbs_of_nonpos (by omega), Int.mul_neg] at hproduct
    split <;> omega
  · rw [Int.natAbs_of_nonneg (by omega)] at hproduct
    split <;> omega

theorem Between.bounds {k : Nat} (h : Between start stop step k) :
    min start stop ≤ start + k * step ∧ start + k * step ≤ max start stop := by
  rcases h with ⟨hstep, h⟩ | ⟨hstep, h⟩
  · have := Int.mul_nonneg (Int.natCast_nonneg k) (Int.le_of_lt hstep)
    omega
  · have := Int.mul_nonneg (Int.natCast_nonneg k) (show 0 ≤ -step by omega)
    rw [Int.mul_neg] at this
    omega

theorem Between.le_distance {k : Nat} (h : Between start stop step k) :
    k ≤ (stop - start).natAbs := by
  rcases h with ⟨hstep, h⟩ | ⟨hstep, h⟩
  · have := Int.mul_le_mul_of_nonneg_left (show 1 ≤ step by omega) (Int.natCast_nonneg k)
    omega
  · have := Int.mul_le_mul_of_nonneg_left (show 1 ≤ -step by omega) (Int.natCast_nonneg k)
    rw [Int.mul_neg] at this
    omega

theorem tdiv_eq_natAbs {a b : Int} (h : (0 < b ∧ 0 ≤ a) ∨ (b < 0 ∧ a ≤ 0)) :
    a.tdiv b = (a.natAbs / b.natAbs : Nat) := by
  have hnonneg : 0 ≤ a.tdiv b := by
    rcases h with ⟨hb, ha⟩ | ⟨hb, ha⟩
    · exact Int.tdiv_nonneg ha (Int.le_of_lt hb)
    · rw [← Int.neg_tdiv_neg]
      exact Int.tdiv_nonneg (by omega) (by omega)
  rw [← Int.natAbs_of_nonneg hnonneg, Int.natAbs_tdiv]
  rfl

end Steps

/-! ## Bits -/

/-- What does not need more than 65 bits besides its sign is not wrapped around at 128. -/
theorem bmod_wide {n : Int} (h : n.natAbs ≤ 2 ^ 65) : n.bmod (2 ^ 128) = n :=
  Int.bmod_eq_of_le (by omega) (by omega)

section Bits

variable (start stop step : Int64)

theorem toInt_widen (n : Int64) : (widen n.toInt).toInt = n.toInt := by
  have hlow := n.le_toInt
  have hhigh := n.toInt_lt
  rw [widen, BitVec.toInt_ofInt, bmod_wide (by omega)]

theorem widen_toInt_eq_zero (n : Int64) : widen n.toInt = 0 ↔ n.toInt = 0 := by
  rw [← BitVec.toInt_inj, toInt_widen]
  rfl

theorem toInt_distance :
    (widen stop.toInt - widen start.toInt).toInt = stop.toInt - start.toInt := by
  have hstart := And.intro start.le_toInt start.toInt_lt
  have hstop := And.intro stop.le_toInt stop.toInt_lt
  rw [BitVec.toInt_sub, toInt_widen, toInt_widen, bmod_wide (by omega)]

theorem natAbs_quotient_le :
    ((stop.toInt - start.toInt).tdiv step.toInt).natAbs ≤ 2 ^ 64 := by
  have hstart := And.intro start.le_toInt start.toInt_lt
  have hstop := And.intro stop.le_toInt stop.toInt_lt
  rw [Int.natAbs_tdiv]
  exact Nat.le_trans (Nat.div_le_self _ _) (by omega)

theorem toInt_quotient :
    ((widen stop.toInt - widen start.toInt).sdiv (widen step.toInt)).toInt =
      (stop.toInt - start.toInt).tdiv step.toInt := by
  have hle := natAbs_quotient_le start stop step
  rw [BitVec.toInt_sdiv, toInt_distance, toInt_widen, bmod_wide (by omega)]

theorem toInt_quotient_add_one :
    ((widen stop.toInt - widen start.toInt).sdiv (widen step.toInt) + 1).toInt =
      (stop.toInt - start.toInt).tdiv step.toInt + 1 := by
  have hle := natAbs_quotient_le start stop step
  have hone : (1 : BitVec 128).toInt = 1 := by decide
  rw [BitVec.toInt_add, toInt_quotient, hone, bmod_wide (by omega)]

variable {start stop step} in
theorem toInt_product {k : Nat} (h : Between start.toInt stop.toInt step.toInt k) :
    (BitVec.ofNat 128 k * widen step.toInt).toInt = k * step.toInt := by
  have hstart := And.intro start.le_toInt start.toInt_lt
  have hstop := And.intro stop.le_toInt stop.toInt_lt
  have hk := h.le_distance
  have hitem := h.bounds
  have hindex : (BitVec.ofNat 128 k).toInt = k := by
    rw [BitVec.toInt_ofNat', bmod_wide (by omega)]
  rw [BitVec.toInt_mul, hindex, toInt_widen, bmod_wide (by omega)]

variable {start stop step} in
theorem toInt_item {k : Nat} (h : Between start.toInt stop.toInt step.toInt k) :
    (widen start.toInt + BitVec.ofNat 128 k * widen step.toInt).toInt =
      start.toInt + k * step.toInt := by
  have hstart := And.intro start.le_toInt start.toInt_lt
  have hstop := And.intro stop.le_toInt stop.toInt_lt
  have hitem := h.bounds
  rw [BitVec.toInt_add, toInt_widen, toInt_product h, bmod_wide (by omega)]

variable {start stop step} in
theorem toInt_rangeItem {k : Nat} (h : Between start.toInt stop.toInt step.toInt k) :
    (rangeItem (widen start.toInt) (widen step.toInt) (.ofNat 128 k)).toInt =
      start.toInt + k * step.toInt := by
  have hstart := And.intro start.le_toInt start.toInt_lt
  have hstop := And.intro stop.le_toInt stop.toInt_lt
  have hitem := h.bounds
  rw [rangeItem, Int64.toInt_ofBitVec, BitVec.toInt_setWidth,
    ← Int.bmod_bmod_of_dvd (show 2 ^ 64 ∣ 2 ^ 128 by decide), ← BitVec.toInt_eq_toNat_bmod,
    toInt_item h, Int.bmod_eq_of_le (by omega) (by omega)]

theorem toInt_rangeCount :
    (rangeCount (widen start.toInt) (widen stop.toInt) (widen step.toInt)).toInt =
      stepCount start.toInt stop.toInt step.toInt := by
  have hzero : (0 : BitVec 128).toInt = 0 := by decide
  simp only [rangeCount, stepCount, Bool.or_eq_true, Bool.and_eq_true, BitVec.slt_iff_toInt_lt,
    BitVec.sle_iff_toInt_le, toInt_widen, hzero]
  split
  · rw [toInt_quotient_add_one, tdiv_eq_natAbs (by omega)]
    rfl
  · exact hzero

/-- Whatever is computed for a range in 128 bits is the same without a limit on the bits, and what
is cut to 64 bits of it stays the same. -/
structure Unwrapped : Prop where
  distance : (widen stop.toInt - widen start.toInt).toInt = stop.toInt - start.toInt
  quotient : ((widen stop.toInt - widen start.toInt).sdiv (widen step.toInt)).toInt =
    (stop.toInt - start.toInt).tdiv step.toInt
  count : ((widen stop.toInt - widen start.toInt).sdiv (widen step.toInt) + 1).toInt =
    (stop.toInt - start.toInt).tdiv step.toInt + 1
  product : ∀ k, Between start.toInt stop.toInt step.toInt k →
    (BitVec.ofNat 128 k * widen step.toInt).toInt = k * step.toInt
  item : ∀ k, Between start.toInt stop.toInt step.toInt k →
    (widen start.toInt + BitVec.ofNat 128 k * widen step.toInt).toInt =
      start.toInt + k * step.toInt
  cut : ∀ k, Between start.toInt stop.toInt step.toInt k →
    (rangeItem (widen start.toInt) (widen step.toInt) (.ofNat 128 k)).toInt =
      (widen start.toInt + BitVec.ofNat 128 k * widen step.toInt).toInt

theorem unwrapped : Unwrapped start stop step where
  distance := toInt_distance start stop
  quotient := toInt_quotient start stop step
  count := toInt_quotient_add_one start stop step
  product _ := toInt_product
  item _ := toInt_item
  cut _ h := (toInt_rangeItem h).trans (toInt_item h).symm

end Bits

/-! ## Ranges -/

section Range

variable {c : Call} {s : Handler.Scope} {start stop step : Int64}

theorem integer_ofInt (c : Call) (index : Nat) (n : Int64) :
    integer c index (.number (.ofInt n.toInt)) = .ok n.toInt := by
  rw [integer, Json.Number.int64?_ofInt n.le_toInt n.toInt_lt]

theorem range_of_values (h : s.resolveAll c =
    .ok [.number (.ofInt start.toInt), .number (.ofInt stop.toInt), .number (.ofInt step.toInt)]) :
    range c s =
      if step = 0 then fail c .zeroStep
      else if s.limits.maxArrayRangeItems < stepCount start.toInt stop.toInt step.toInt then
        fail c (.rangeTooLong (stepCount start.toInt stop.toInt step.toInt)
          s.limits.maxArrayRangeItems)
      else if capacity < stepCount start.toInt stop.toInt step.toInt then .error .oversized
      else .ok (.array (rangeItems (widen start.toInt) (widen step.toInt)
        (stepCount start.toInt stop.toInt step.toInt))) := by
  have hzero : widen step.toInt = 0 ↔ step = 0 := by
    rw [widen_toInt_eq_zero, ← Int64.toInt_inj]
    rfl
  rw [range, ternary_of_values h]
  simp only [integer_ofInt, bind, Except.bind, toInt_rangeCount, hzero, Int.ofNat_lt,
    Int.toNat_natCast]
  rfl

theorem rangeItems_exact {count : Nat}
    (h : ∀ k, k < count → Between start.toInt stop.toInt step.toInt k) :
    ∃ items : List Int64,
      rangeItems (widen start.toInt) (widen step.toInt) count =
        items.map (fun i => .number (.ofInt i.toInt)) ∧
      items.map Int64.toInt =
        (List.range count).map fun (k : Nat) => start.toInt + k * step.toInt := by
  refine ⟨(List.range count).map fun k =>
    rangeItem (widen start.toInt) (widen step.toInt) (.ofNat 128 k), ?_, ?_⟩
  · rw [List.map_map]
    rfl
  · rw [List.map_map]
    exact List.map_congr_left fun k hk => toInt_rangeItem (h k (List.mem_range.1 hk))

/-- **A range is exact.** For a step other than zero it has as many numbers as there are steps that
do not lead past its end. It fails if these are more than the limit, and breaks off if the limit
lets them be more than an array can hold. Its numbers are those that the steps lead to, in order, at
the ends of the 64 bits as anywhere else. A step that points away from the end gives no numbers, and
the step zero fails. -/
theorem range_exact {limits : Settings.Calls} {entropy : UInt64} {sources : Path.Sources}
    (hname : c.name = "States.ArrayRange")
    (hvalues : ((Registry.standard limits).scope sources entropy c).resolveAll c =
      .ok [.number (.ofInt start.toInt), .number (.ofInt stop.toInt),
        .number (.ofInt step.toInt)]) :
    Unwrapped start stop step ∧
    (step = 0 → (Registry.standard limits).call entropy c sources =
      .error (.failed c.render .zeroStep)) ∧
    (step ≠ 0 → ∃ count : Nat, (∀ k, Between start.toInt stop.toInt step.toInt k ↔ k < count) ∧
      ((∃ v, (Registry.standard limits).call entropy c sources = .ok v) ↔
        count ≤ limits.maxArrayRangeItems ∧ count ≤ capacity) ∧
      (limits.maxArrayRangeItems < count → (Registry.standard limits).call entropy c sources =
        .error (.failed c.render (.rangeTooLong count limits.maxArrayRangeItems))) ∧
      (count ≤ limits.maxArrayRangeItems → capacity < count →
        (Registry.standard limits).call entropy c sources = .error .oversized) ∧
      (count ≤ limits.maxArrayRangeItems → count ≤ capacity → ∃ items : List Int64,
        (Registry.standard limits).call entropy c sources =
          .ok (.array (items.map fun i => .number (.ofInt i.toInt))) ∧
        items.map Int64.toInt =
          (List.range count).map fun (k : Nat) => start.toInt + k * step.toInt)) ∧
    ((0 < step ∧ stop < start) ∨ (step < 0 ∧ start < stop) →
      (Registry.standard limits).call entropy c sources = .ok (.array [])) := by
  have hfind : (Registry.standard limits).find? c.name = some range := by
    rw [hname]
    rfl
  have hcall := (Registry.call_of_find hfind).trans (range_of_values hvalues)
  rw [show ((Registry.standard limits).scope sources entropy c).limits = limits from rfl] at hcall
  generalize hcount : stepCount start.toInt stop.toInt step.toInt = count at hcall
  refine ⟨unwrapped start stop step, fun hstep => ?_, fun hstep => ?_, fun haway => ?_⟩
  · rw [hcall, if_pos hstep]
    rfl
  · have hbetween : ∀ k, Between start.toInt stop.toInt step.toInt k ↔ k < count := by
      rw [← hcount]
      exact between_iff fun h => hstep (Int64.toInt_inj.1 h)
    obtain ⟨items, hitems, hnumbers⟩ := rangeItems_exact fun k => (hbetween k).2
    rw [if_neg hstep, hitems] at hcall
    have hfails (hmany : limits.maxArrayRangeItems < count) := hcall.trans (if_pos hmany)
    have hbreaks (hle : count ≤ limits.maxArrayRangeItems) (hlong : capacity < count) :=
      hcall.trans ((if_neg (Nat.not_lt.2 hle)).trans (if_pos hlong))
    have hgives (hle : count ≤ limits.maxArrayRangeItems) (hroom : count ≤ capacity) :=
      hcall.trans ((if_neg (Nat.not_lt.2 hle)).trans (if_neg (Nat.not_lt.2 hroom)))
    refine ⟨count, hbetween, ⟨?_, fun ⟨hle, hroom⟩ => ⟨_, hgives hle hroom⟩⟩, hfails, hbreaks,
      fun hle hroom => ⟨items, hgives hle hroom, hnumbers⟩⟩
    rintro ⟨v, hv⟩
    refine ⟨Nat.le_of_not_lt fun hmany => ?_, Nat.le_of_not_lt fun hlong => ?_⟩
    · cases (hfails hmany).symm.trans hv
    · rcases Nat.lt_or_ge limits.maxArrayRangeItems count with hmany | hle
      · cases (hfails hmany).symm.trans hv
      · cases (hbreaks hle hlong).symm.trans hv
  · rw [Int64.lt_iff_toInt_lt, Int64.lt_iff_toInt_lt, Int64.lt_iff_toInt_lt,
      Int64.lt_iff_toInt_lt, Int64.toInt_zero] at haway
    have hstep : step ≠ 0 := by
      rintro rfl
      simp at haway
    have hnone : count = 0 := by
      rw [← hcount, stepCount, if_neg (by omega)]
    rw [hcall, if_neg hstep, hnone, if_neg (Nat.not_lt_zero _), if_neg (Nat.not_lt_zero _)]
    rfl

/-- The steps of the greatest length from the least number of 64 bits to the greatest. -/
def longSteps : Call :=
  ⟨"States.ArrayRange", [.path "$.least", .path "$$.greatest", .int Int64.maxValue]⟩

/-- The ends of the 64 bits as documents. -/
def ends : Path.Sources :=
  ⟨.object [("least", .number (.ofInt Int64.minValue.toInt))],
    .object [("greatest", .number (.ofInt Int64.maxValue.toInt))]⟩

theorem longSteps_exact :
    ((Registry.standard {}).scope ends 0 longSteps).resolveAll longSteps =
      .ok [.number (.ofInt Int64.minValue.toInt), .number (.ofInt Int64.maxValue.toInt),
        .number (.ofInt Int64.maxValue.toInt)] ∧
    ∃ items : List Int64,
      (Registry.standard {}).call 0 longSteps ends =
        .ok (.array (items.map fun i => .number (.ofInt i.toInt))) ∧
      items.map Int64.toInt = [-9223372036854775808, -1, 9223372036854775806] := by
  have hvalues : ((Registry.standard {}).scope ends 0 longSteps).resolveAll longSteps =
      .ok [.number (.ofInt Int64.minValue.toInt), .number (.ofInt Int64.maxValue.toInt),
        .number (.ofInt Int64.maxValue.toInt)] := by decide +kernel
  obtain ⟨-, -, hsteps, -⟩ := range_exact rfl hvalues
  obtain ⟨count, hcount, -, -, -, hitems⟩ := hsteps (by decide)
  have hthird : 2 < count := (hcount 2).1 (.inl (by decide))
  have hlast : ¬ 3 < count := fun h => absurd ((hcount 3).2 h) (by unfold Between; decide)
  obtain rfl : count = 3 := by omega
  obtain ⟨items, hcall, hnumbers⟩ := hitems (by decide) (by decide)
  exact ⟨hvalues, items, hcall, hnumbers.trans (by decide)⟩

/-- The numbers from zero to the middle of the positive ones of 64 bits. -/
def half : Call :=
  ⟨"States.ArrayRange", [.int 0, .int 4611686018427387903, .int 1]⟩

/-- The limit lets all of them in, but no array has room for them. -/
theorem half_breaks :
    (∀ k, Between 0 4611686018427387903 1 k ↔ k < 4611686018427387904) ∧
    4611686018427387904 ≤ 9223372036854775807 ∧
    (Registry.standard { maxArrayRangeItems := 9223372036854775807 }).call 0 half ⟨.null, .null⟩ =
      .error .oversized := by
  refine ⟨fun k => ?_, by decide, by decide +kernel⟩
  rw [between_iff (by decide)]
  exact Iff.rfl

end Range

end StatesLang.Builtin
