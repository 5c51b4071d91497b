import Mathlib.Algebra.Group.Nat.Defs
import StatesLang.Number.Shortest

/-!
# What rounds to a double

* `Binary64.nearest_eq`: a quotient within half a step of an integer is rounded to it.
* `Binary64.Significand`: a magnitude as 53 significant bits and an exponent.
* **`Binary64.roundUnits_of_contains`**: the numbers in the interval of a magnitude round to it.
-/

namespace StatesLang.Binary64

open Shortest (interval)

/-- The integer within half a step, the even one where the quotient lies in the middle. -/
theorem nearest_eq {num den m : Nat} (hlow : 2 * (m * den) ≤ 2 * num + den)
    (hhigh : 2 * num ≤ 2 * (m * den) + den)
    (htie : 2 * (m * den) = 2 * num + den ∨ 2 * num = 2 * (m * den) + den → m % 2 = 0)
    (hden : 0 < den) : nearest num den = m := by
  have hdiv := Nat.div_add_mod num den
  have hmod := Nat.mod_lt num hden
  rw [Nat.mul_comm] at hdiv
  have hcases : m = num / den ∨ m = num / den + 1 := by
    rcases Nat.lt_or_ge m (num / den) with h | h
    · have hmul := Nat.mul_le_mul_right den h
      rw [Nat.succ_mul] at hmul
      omega
    · rcases Nat.lt_or_ge (num / den + 1) m with h' | h'
      · have hmul := Nat.mul_le_mul_right den h'
        rw [Nat.succ_mul, Nat.succ_mul] at hmul
        omega
      · omega
  unfold nearest
  dsimp only
  generalize num / den = q at *
  generalize num % den = r at *
  rcases hcases with rfl | rfl
  · exact if_pos (by omega)
  · rw [Nat.succ_mul q] at hlow hhigh htie
    exact if_neg (by omega)

theorem spacing_eq {num den e : Nat} (hlow : e = 0 ∨ 2 ^ 52 * (2 ^ e * den) ≤ num)
    (hhigh : num < 2 ^ 53 * (2 ^ e * den)) (hden : 0 < den) : spacing num den = e := by
  have hlt : num / den < 2 ^ (e + 53) := by
    rw [Nat.div_lt_iff_lt_mul hden, Nat.pow_add, Nat.mul_comm (2 ^ e), Nat.mul_assoc]
    exact hhigh
  have hlog : (num / den).log2 ≤ e + 52 := by
    by_cases h : num / den = 0
    · simp [h]
    · have := (Nat.log2_lt h).2 hlt
      omega
  unfold spacing
  rcases hlow with rfl | hlow
  · omega
  · have hle : 2 ^ (e + 52) ≤ num / den := by
      rw [Nat.le_div_iff_mul_le hden, Nat.pow_add, Nat.mul_comm (2 ^ e), Nat.mul_assoc]
      exact hlow
    have := (Nat.le_log2 (Nat.ne_of_gt (Nat.lt_of_lt_of_le (Nat.two_pow_pos _) hle))).2 hle
    omega

/-- A quotient is rounded on the grid where it has 53 significant bits. -/
theorem roundUnits_eq {num den m e : Nat} (hlow : e = 0 ∨ 2 ^ 52 * (2 ^ e * den) ≤ num)
    (hhigh : num < 2 ^ 53 * (2 ^ e * den)) (hnear : nearest num (2 ^ e * den) = m)
    (hden : 0 < den) : roundUnits num den = m * 2 ^ e := by
  unfold roundUnits
  dsimp only
  rw [spacing_eq hlow hhigh hden, Nat.shiftLeft_eq, Nat.shiftLeft_eq, Nat.mul_comm den, hnear]

/-! ## Significant bits -/

/-- A positive magnitude `m · 2^e` with 53 significant bits, or fewer on the finest grid. -/
structure Significand (units m e : Nat) : Prop where
  eq : units = m * 2 ^ e
  pos : 0 < m
  lt : m < 2 ^ 53
  full : e = 0 ∨ 2 ^ 52 ≤ m

theorem exists_significand {units : Nat} (h : IsMagnitude units) (hpos : 0 < units) :
    ∃ m, Significand units m (units.log2 - 52) := by
  obtain ⟨m, hm⟩ := h.2
  rw [Nat.shiftLeft_eq, Nat.one_mul] at hm
  have hne : units ≠ 0 := Nat.ne_of_gt hpos
  have hlt := Nat.lt_log2_self (n := units)
  have hle := Nat.log2_self_le hne
  generalize units.log2 = l at *
  have hpow := Nat.two_pow_pos (l - 52)
  refine ⟨m, by rw [hm, Nat.mul_comm], ?_, ?_, ?_⟩
  · refine Nat.pos_of_ne_zero fun h0 => hne ?_
    rw [hm, h0, Nat.mul_zero]
  · have hpow' : 2 ^ (l + 1) ≤ 2 ^ (l - 52) * 2 ^ 53 := by
      rw [← Nat.pow_add]
      exact Nat.pow_le_pow_right (by decide) (by omega)
    exact Nat.lt_of_mul_lt_mul_left (Nat.lt_of_lt_of_le (hm ▸ hlt) hpow')
  · by_cases h52 : l ≤ 52
    · exact .inl (by omega)
    · have hpow' : 2 ^ l = 2 ^ (l - 52) * 2 ^ 52 := by
        rw [← Nat.pow_add, Nat.sub_add_cancel (by omega)]
      rw [hpow', hm] at hle
      exact .inr (Nat.le_of_mul_le_mul_left hle hpow)

theorem Significand.log2_sub {units m e : Nat} (h : Significand units m e) :
    units.log2 - 52 = e := by
  have hpow := Nat.two_pow_pos e
  have hne : units ≠ 0 := by
    rw [h.eq]
    exact Nat.mul_ne_zero (Nat.ne_of_gt h.pos) (Nat.ne_of_gt hpow)
  have hlt : units.log2 < 53 + e := by
    rw [Nat.log2_lt hne, h.eq, Nat.pow_add]
    exact Nat.mul_lt_mul_of_pos_right h.lt hpow
  rcases h.full with rfl | hfull
  · omega
  · have hle : 52 + e ≤ units.log2 := by
      rw [Nat.le_log2 hne, h.eq, Nat.pow_add]
      exact Nat.mul_le_mul_right _ hfull
    omega

/-- The magnitudes below which the doubles stand twice as dense. -/
theorem Significand.power_iff {units m e : Nat} (h : Significand units m e) :
    (units = 1 <<< units.log2 ∧ 53 ≤ units.log2) ↔ (m = 2 ^ 52 ∧ 1 ≤ e) := by
  have hlog := h.log2_sub
  rw [Nat.shiftLeft_eq, Nat.one_mul]
  constructor
  · rintro ⟨hpower, h53⟩
    have hsplit : 2 ^ units.log2 = 2 ^ 52 * 2 ^ e := by
      rw [← Nat.pow_add]
      congr 1
      omega
    refine ⟨Nat.eq_of_mul_eq_mul_right (Nat.two_pow_pos e) ?_, by omega⟩
    rw [← h.eq, ← hsplit]
    exact hpower
  · rintro ⟨rfl, he⟩
    have hunits : units = 2 ^ (52 + e) := by rw [h.eq, Nat.pow_add]
    rw [hunits, Nat.log2_two_pow]
    exact ⟨rfl, by omega⟩

/-- How far the interval reaches below a magnitude, in quarters of a unit. -/
def below (m e : Nat) : Nat :=
  if m = 2 ^ 52 ∧ 1 ≤ e then 2 ^ e else 2 * 2 ^ e

theorem Significand.interval_eq {units m e : Nat} (h : Significand units m e) :
    interval units =
      ⟨4 * units - below m e, 4 * units + 2 * 2 ^ e, decide (m % 2 = 0)⟩ := by
  have hbits : units / 2 ^ e = m := by
    rw [h.eq, Nat.mul_div_cancel _ (Nat.two_pow_pos e)]
  have hpower := h.power_iff
  unfold interval below
  rw [Nat.shiftLeft_eq, Nat.one_mul] at hpower
  simp only [h.log2_sub, Nat.shiftLeft_eq, Nat.one_mul, hbits, hpower]

theorem below_le (m e : Nat) : below m e ≤ 2 * 2 ^ e := by
  unfold below
  split <;> omega

/-- What a number in the interval satisfies: it is within half a step, and only an even magnitude
has the ends of its interval. -/
theorem Significand.bounds {units m e num den : Nat} (h : Significand units m e)
    (hin : (interval units).contains (4 * num) den = true) :
    4 * (m * (2 ^ e * den)) ≤ 4 * num + below m e * den ∧
      4 * num ≤ 4 * (m * (2 ^ e * den)) + 2 * (2 ^ e * den) ∧
      (4 * (m * (2 ^ e * den)) = 4 * num + below m e * den ∨
        4 * num = 4 * (m * (2 ^ e * den)) + 2 * (2 ^ e * den) → m % 2 = 0) := by
  have hlow : (4 * units - below m e) * den = 4 * (m * (2 ^ e * den)) - below m e * den := by
    rw [Nat.sub_mul, h.eq, Nat.mul_assoc, Nat.mul_assoc]
  have hhigh : (4 * units + 2 * 2 ^ e) * den =
      4 * (m * (2 ^ e * den)) + 2 * (2 ^ e * den) := by
    rw [Nat.add_mul, h.eq, Nat.mul_assoc, Nat.mul_assoc, Nat.mul_assoc]
  rw [h.interval_eq, Shortest.Interval.contains] at hin
  simp only [hlow, hhigh] at hin
  split at hin
  · next heven =>
    rw [Bool.and_eq_true, decide_eq_true_eq, decide_eq_true_eq] at hin
    rw [decide_eq_true_eq] at heven
    exact ⟨by omega, by omega, fun _ => heven⟩
  · rw [Bool.and_eq_true, decide_eq_true_eq, decide_eq_true_eq] at hin
    exact ⟨by omega, by omega, fun htie => by omega⟩

/-- **A number in the interval of a magnitude rounds to it.** -/
theorem Significand.roundUnits_eq {units m e num den : Nat} (h : Significand units m e)
    (hden : 0 < den) (hin : (interval units).contains (4 * num) den = true) :
    roundUnits num den = units := by
  obtain ⟨hlow, hhigh, htie⟩ := h.bounds hin
  have hstep : 0 < 2 ^ e * den := Nat.mul_pos (Nat.two_pow_pos e) hden
  by_cases hunder : m = 2 ^ 52 ∧ 1 ≤ e ∧ num < m * (2 ^ e * den)
  · -- below a power of two the number has one bit less, and the grid is twice as fine
    obtain ⟨rfl, he, hunder⟩ := hunder
    obtain ⟨k, rfl⟩ := Nat.exists_eq_add_of_le' he
    have hhalf : 2 ^ (k + 1) * den = 2 * (2 ^ k * den) := by
      rw [Nat.pow_succ, Nat.mul_comm (2 ^ k), Nat.mul_assoc]
    rw [below, if_pos ⟨rfl, he⟩, hhalf] at hlow htie
    rw [hhalf] at hunder hstep
    have hnear : nearest num (2 ^ k * den) = 2 ^ 53 :=
      nearest_eq (by omega) (by omega) (fun _ => rfl) (by omega)
    rw [Binary64.roundUnits_eq (.inr (by omega)) (by omega) hnear hden, h.eq, Nat.pow_succ]
    omega
  · have hbelow : below m e * den ≤ 2 * (2 ^ e * den) := by
      rw [← Nat.mul_assoc]
      exact Nat.mul_le_mul_right den (below_le m e)
    have hmul := Nat.mul_le_mul_right (2 ^ e * den) (show m + 1 ≤ 2 ^ 53 from h.lt)
    rw [Nat.succ_mul m] at hmul
    have hfull : e = 0 ∨ 2 ^ 52 * (2 ^ e * den) ≤ num := by
      rcases h.full with rfl | hfull
      · exact .inl rfl
      · by_cases he : e = 0
        · exact .inl he
        · refine .inr ?_
          rcases Nat.eq_or_lt_of_le hfull with rfl | hlt
          · omega
          · have hmul := Nat.mul_le_mul_right (2 ^ e * den) (show 2 ^ 52 + 1 ≤ m from hlt)
            rw [Nat.add_mul, Nat.one_mul] at hmul
            omega
    have hnear : nearest num (2 ^ e * den) = m :=
      nearest_eq (by omega) (by omega) (by omega) hstep
    rw [Binary64.roundUnits_eq hfull (by omega) hnear hden, h.eq]

end StatesLang.Binary64
