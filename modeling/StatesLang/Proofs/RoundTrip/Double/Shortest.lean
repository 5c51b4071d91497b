import Mathlib.Tactic.Ring
import Mathlib.Tactic.SplitIfs
import StatesLang.Proofs.RoundTrip.Double.Rounding

/-!
# The shortest decimal reads back

* `Shortest.Holds`: a decimal in an interval; `Shortest.holds_shift`: it may be written with another
  exponent.
* `Shortest.holds_search`: the search ends in the interval if one of its grids has a decimal there.
* `Shortest.seventeen_digits`: the grid of seventeen digits has one.
* **`Binary64.holds_shortest`**: the shortest decimal of a double lies in its interval.
-/

namespace StatesLang

namespace Shortest

open Binary64 (one Significand below_le)

/-! ## Decimals in an interval -/

theorem tenPow_pos (e : Int) : 0 < (tenPow e).2 := by
  unfold tenPow
  split
  · exact Nat.one_pos
  · exact Nat.pow_pos (by decide)

theorem tenPow_add (e : Int) (n : Nat) :
    (tenPow (e + n)).1 * (tenPow e).2 = 10 ^ n * (tenPow e).1 * (tenPow (e + n)).2 := by
  have hpow : ∀ {a b c : Nat}, a + b = c → 10 ^ a * 10 ^ b = 10 ^ c := by
    intro a b c h
    rw [← Nat.pow_add, h]
  unfold tenPow
  split_ifs with h1 h2 h2
  · simp only [Nat.mul_one]
    exact (hpow (by omega)).symm
  · simp only [Nat.mul_one]
    exact hpow (by omega)
  · omega
  · simp only [Nat.mul_one, Nat.one_mul]
    exact (hpow (by omega)).symm

theorem Interval.contains_congr (i : Interval) {a b a' b' : Nat} (hb : 0 < b) (hb' : 0 < b')
    (h : a * b' = a' * b) : i.contains a b = i.contains a' b' := by
  have hle : ∀ n, n * b ≤ a ↔ n * b' ≤ a' := by
    intro n
    rw [← Nat.mul_le_mul_right_iff hb', h, Nat.mul_right_comm, Nat.mul_le_mul_right_iff hb]
  have hge : ∀ n, a ≤ n * b ↔ a' ≤ n * b' := by
    intro n
    rw [← Nat.mul_le_mul_right_iff hb', h, Nat.mul_right_comm, Nat.mul_le_mul_right_iff hb]
  simp only [contains, ← Nat.not_le, hle, hge]

/-- A decimal that lies in an interval. -/
def Holds (i : Interval) (d : Decimal) : Prop :=
  i.contains (4 * (d.digits * (tenPow d.exponent).1 * one)) (tenPow d.exponent).2 = true

/-- Zeros at the end of the digits go into the exponent. -/
theorem holds_shift {i : Interval} (digits n : Nat) (e : Int) :
    Holds i ⟨digits * 10 ^ n, e⟩ ↔ Holds i ⟨digits, e + n⟩ := by
  have h := tenPow_add e n
  unfold Holds
  dsimp only
  rw [i.contains_congr (tenPow_pos e) (tenPow_pos (e + n))]
  calc 4 * (digits * 10 ^ n * (tenPow e).1 * one) * (tenPow (e + n)).2
      = 4 * digits * one * (10 ^ n * (tenPow e).1 * (tenPow (e + n)).2) := by ring
    _ = 4 * digits * one * ((tenPow (e + n)).1 * (tenPow e).2) := by rw [h]
    _ = 4 * (digits * (tenPow (e + n)).1 * one) * (tenPow e).2 := by ring

theorem holds_strip {i : Interval} {d : Decimal} (h : Holds i d) (steps : Nat) :
    Holds i (strip steps d) := by
  induction steps generalizing d with
  | zero => exact h
  | succ steps ih =>
    unfold strip
    split
    · next hzero =>
      refine ih ((holds_shift (d.digits / 10) 1 d.exponent).1 ?_)
      rwa [Nat.pow_one, Nat.div_mul_cancel (Nat.dvd_of_mod_eq_zero hzero.1)]
    · exact h

/-! ## The search -/

/-- The upper neighbour of the value on a grid. -/
def upper (units : Nat) (p : Int) : Nat :=
  units * (tenPow p).2 / ((tenPow p).1 * one) + 1

theorem holds_iff_fits {i : Interval} {d : Nat} {p : Int} :
    Holds i ⟨d, p⟩ ↔ i.contains (4 * d * ((tenPow p).1 * one)) (tenPow p).2 = true := by
  unfold Holds
  dsimp only
  rw [Nat.mul_assoc 4, Nat.mul_assoc d]

theorem holds_neighbour {tie : Tie} {i : Interval} {units d : Nat} {p : Int}
    (h : neighbour tie i units p = some d) : Holds i ⟨d, p⟩ := by
  rw [holds_iff_fits]
  simp only [neighbour] at h
  split at h
  · next hlow hhigh =>
    split at h
    · cases h; exact hlow
    · split at h
      · cases tie with
        | up => cases h; exact hhigh
        | toEven =>
          dsimp only at h
          split at h
          · cases h; exact hlow
          · cases h; exact hhigh
      · cases h; exact hhigh
  · next hlow _ => cases h; exact hlow
  · next _ hhigh => cases h; exact hhigh
  · cases h

theorem exists_neighbour (tie : Tie) {i : Interval} {units : Nat} {p : Int}
    (h : Holds i ⟨upper units p, p⟩) : ∃ d, neighbour tie i units p = some d := by
  rw [holds_iff_fits, upper] at h
  refine Option.isSome_iff_exists.1 ?_
  simp only [neighbour, h]
  split
  · split
    · rfl
    · split
      · cases tie with
        | up => rfl
        | toEven =>
          dsimp only
          split <;> rfl
      · rfl
  · rfl
  · rfl
  · next hhigh => cases hhigh

/-- The search goes down to the last of its grids if it has to. -/
theorem holds_search (tie : Tie) {i : Interval} {units steps : Nat} {p : Int}
    (h : Holds i ⟨upper units (p - steps), p - steps⟩) : Holds i (search tie i units steps p) := by
  induction steps generalizing p with
  | zero =>
    obtain ⟨d, hd⟩ := exists_neighbour tie h
    rw [Int.natCast_zero, Int.sub_zero] at hd
    rw [search, hd]
    exact holds_neighbour hd
  | succ steps ih =>
    unfold search
    split
    · next d hd => exact holds_neighbour hd
    · refine ih ?_
      rwa [show p - 1 - (steps : Int) = p - (steps + 1 : Nat) by omega]

/-! ## Seventeen digits suffice -/

theorem holds_upper {units m e : Nat} (h : Significand units m e) {p : Int}
    (hp : 2 * ((tenPow p).1 * one) < 2 ^ e * (tenPow p).2) :
    Holds (interval units) ⟨upper units p, p⟩ := by
  have hden : 0 < (tenPow p).1 * one := by
    refine Nat.mul_pos ?_ (by decide)
    unfold tenPow
    split
    · exact Nat.pow_pos (by decide)
    · exact Nat.one_pos
  rw [holds_iff_fits, h.interval_eq, upper]
  generalize (tenPow p).1 * one = den at *
  generalize (tenPow p).2 = b at *
  have hdiv := Nat.div_add_mod (units * b) den
  have hmod := Nat.mod_lt (units * b) hden
  have habove : (units * b / den + 1) * den = den * (units * b / den) + den := by
    rw [Nat.succ_mul, Nat.mul_comm]
  have hlow : (4 * units - Binary64.below m e) * b ≤ 4 * (units * b) := by
    rw [← Nat.mul_assoc]
    exact Nat.mul_le_mul_right b (Nat.sub_le ..)
  have hhigh : (4 * units + 2 * 2 ^ e) * b = 4 * (units * b) + 2 * (2 ^ e * b) := by
    rw [Nat.add_mul, Nat.mul_assoc, Nat.mul_assoc]
  rw [Interval.contains, Nat.mul_assoc 4, habove]
  dsimp only
  rw [hhigh]
  split
  · rw [Bool.and_eq_true, decide_eq_true_eq, decide_eq_true_eq]
    omega
  · rw [Bool.and_eq_true, decide_eq_true_eq, decide_eq_true_eq]
    omega

/-- A power of ten that is not above a value. -/
def Reaches (units : Nat) (k : Int) : Prop :=
  (tenPow k).1 * one ≤ units * (tenPow k).2

theorem reaches_leading {units steps : Nat} {k : Int} (h : Reaches units (k - steps)) :
    Reaches units (leading units steps k) := by
  induction steps generalizing k with
  | zero => rwa [Int.natCast_zero, Int.sub_zero] at h
  | succ steps ih =>
    simp only [leading]
    split
    · next hk => exact hk
    · refine ih ?_
      rwa [show k - 1 - (steps : Int) = k - (steps + 1 : Nat) by omega]

theorem ten_pow_le (j r : Nat) : 10 ^ (3 * j + r) ≤ 2 ^ (10 * j + 4 * r) := by
  rw [Nat.pow_add, Nat.pow_add, Nat.pow_mul, Nat.pow_mul, Nat.pow_mul]
  exact Nat.mul_le_mul (Nat.pow_le_pow_left (by decide) j) (Nat.pow_le_pow_left (by decide) r)

theorem two_pow_le (j q c : Nat) : 2 ^ (93 * j + 13 * q + 3 * c) ≤ 10 ^ (28 * j + 4 * q + c) := by
  rw [Nat.pow_add, Nat.pow_add, Nat.pow_add, Nat.pow_add, Nat.pow_mul, Nat.pow_mul, Nat.pow_mul,
    Nat.pow_mul, Nat.pow_mul]
  exact Nat.mul_le_mul (Nat.mul_le_mul (Nat.pow_le_pow_left (by decide) j)
    (Nat.pow_le_pow_left (by decide) q)) (Nat.pow_le_pow_left (by decide) c)

/-- The bound is at most three too large, for all magnitudes of doubles. -/
theorem reaches_bound {units : Nat} (hpos : 0 < units) (hlt : units < 1 <<< 2098) :
    Reaches units (leadingBound units - (3 : Nat)) := by
  have hne : units ≠ 0 := Nat.ne_of_gt hpos
  have hlog : units.log2 < 2098 :=
    (Nat.log2_lt hne).2 (Nat.lt_of_lt_of_eq hlt (Nat.one_shiftLeft 2098))
  have hself := Nat.log2_self_le hne
  unfold Reaches leadingBound tenPow one
  rw [Nat.one_shiftLeft]
  generalize units.log2 = l at *
  split
  · next hk =>
    dsimp only
    generalize hK : (((l : Int) - 1074) * 30103 / 100000 + 1 - (3 : Nat)).toNat = K
    have hexp : 10 * (K / 3) + 4 * (K % 3) + 1074 ≤ l := by omega
    rw [Nat.mul_one]
    calc Nat.pow 10 K * 2 ^ 1074
        ≤ 2 ^ (10 * (K / 3) + 4 * (K % 3)) * 2 ^ 1074 := by
          refine Nat.mul_le_mul_right _ ?_
          have := ten_pow_le (K / 3) (K % 3)
          rwa [Nat.div_add_mod] at this
      _ ≤ 2 ^ l := by
          rw [← Nat.pow_add]
          exact Nat.pow_le_pow_right (by decide) hexp
      _ ≤ units := hself
  · next hk =>
    dsimp only
    generalize hK : (-(((l : Int) - 1074) * 30103 / 100000 + 1 - (3 : Nat))).toNat = K
    obtain ⟨j, q, c, hlow, hhigh⟩ : ∃ j q c : Nat,
        1074 ≤ l + (93 * j + 13 * q + 3 * c) ∧ 28 * j + 4 * q + c ≤ K :=
      ⟨(1074 - l) / 93, (1074 - l) % 93 / 13, ((1074 - l) % 93 % 13 + 2) / 3, by omega, by omega⟩
    calc 1 * 2 ^ 1074
        ≤ 2 ^ (l + (93 * j + 13 * q + 3 * c)) :=
          Nat.le_trans (Nat.le_of_eq (Nat.one_mul _)) (Nat.pow_le_pow_right (by decide) hlow)
      _ = 2 ^ l * 2 ^ (93 * j + 13 * q + 3 * c) := Nat.pow_add ..
      _ ≤ units * 10 ^ K :=
          Nat.mul_le_mul hself
            (Nat.le_trans (two_pow_le j q c) (Nat.pow_le_pow_right (by decide) hhigh))

/-- Seventeen digits are finer than half a step. -/
theorem seventeen_digits {units m e : Nat} (h : Significand units m e) {k : Int}
    (hk : Reaches units k) :
    2 * ((tenPow (k - 17)).1 * one) < 2 ^ e * (tenPow (k - 17)).2 := by
  have hadd := tenPow_add (k - 17) 17
  rw [show k - 17 + ((17 : Nat) : Int) = k by omega] at hadd
  have hkpos := tenPow_pos k
  have hppos := tenPow_pos (k - 17)
  unfold Reaches at hk
  generalize (tenPow k).1 = ak at *
  generalize (tenPow k).2 = bk at *
  generalize (tenPow (k - 17)).1 = a at *
  generalize (tenPow (k - 17)).2 = b at *
  have hvalue : 10 ^ 17 * (a * one) ≤ units * b := by
    refine Nat.le_of_mul_le_mul_right ?_ hkpos
    calc 10 ^ 17 * (a * one) * bk = 10 ^ 17 * a * bk * one := by ring
      _ = ak * one * b := by rw [← hadd]; ring
      _ ≤ units * bk * b := Nat.mul_le_mul_right b hk
      _ = units * b * bk := by ring
  have hunits : units * b < 2 ^ 53 * (2 ^ e * b) := by
    rw [h.eq, Nat.mul_assoc]
    exact Nat.mul_lt_mul_of_pos_right h.lt (Nat.mul_pos (Nat.two_pow_pos e) hppos)
  omega

end Shortest

open Shortest in
/-- **The shortest decimal of a double lies in its interval.** -/
theorem Binary64.holds_shortest (tie : Tie) (x : Binary64) (hx : x.units ≠ 0) :
    Holds (interval x.units) (x.shortest tie) := by
  have hpos := Nat.pos_of_ne_zero hx
  obtain ⟨m, hm⟩ := exists_significand x.representable hpos
  have hk := reaches_leading (reaches_bound hpos x.representable.1)
  rw [shortest, if_neg hx]
  exact holds_strip (holds_search tie (holds_upper hm (seventeen_digits hm hk))) 17

end StatesLang
