import StatesLang.Json.Basic
import StatesLang.Proofs.RoundTrip.Double.Rounding

/-!
# The order of numbers

Two integers are compared as they are, whichever of the two 64-bit ranges they lie in. Any other
pair is compared as doubles, so that a double has the place of all integers that round to it.

* `Binary64.isMagnitude_roundUnits`: rounding stays among the magnitudes of doubles.
* **`Json.Number.compare_int`**: the order of integers is exact.
* **`Json.Number.compare_trans_iff`**: equality of numbers is transitive, except through a double
  between two integers that round to it.
-/

namespace StatesLang

/-! ## Rounding -/

namespace Binary64

theorem nearest_le {num den m : Nat} (hden : 0 < den) (h : num ≤ m * den) :
    nearest num den ≤ m := by
  have hdiv : num / den ≤ m := Nat.div_le_of_le_mul (by rwa [Nat.mul_comm])
  have hmod := Nat.div_add_mod num den
  unfold nearest
  dsimp only
  split
  · exact hdiv
  · next hup =>
    -- where the rest rounds up there is one, so the quotient is not the bound itself
    rcases Nat.eq_or_lt_of_le hdiv with he | hlt
    · rw [he, Nat.mul_comm] at hmod
      omega
    · exact hlt

theorem le_nearest {num den m : Nat} (hden : 0 < den) (h : m * den ≤ num) :
    m ≤ nearest num den := by
  have hdiv : m ≤ num / den := (Nat.le_div_iff_mul_le hden).2 h
  unfold nearest
  dsimp only
  split <;> omega

/-- A multiple of a power of two with at most 53 bits is a magnitude. -/
theorem isMagnitude_mul {m e : Nat} (hm : m ≤ 2 ^ 53) (he : 53 + e < 2098) :
    IsMagnitude (m * 2 ^ e) := by
  have hlt : ∀ k, 53 + e < k → m * 2 ^ e < 1 <<< k := by
    intro k hk
    rw [Nat.shiftLeft_eq, Nat.one_mul]
    refine Nat.lt_of_le_of_lt (Nat.mul_le_mul_right _ hm) ?_
    rw [← Nat.pow_add]
    exact Nat.pow_lt_pow_right (by decide) hk
  refine ⟨hlt _ he, ?_⟩
  rw [Nat.shiftLeft_eq, Nat.one_mul]
  rcases Nat.eq_or_lt_of_le hm with rfl | hm
  · rw [← Nat.pow_add, Nat.log2_two_pow]
    exact Nat.pow_dvd_pow 2 (by omega)
  · rcases Nat.eq_zero_or_pos m with rfl | hpos
    · simp
    · have hne : m * 2 ^ e ≠ 0 := Nat.ne_of_gt (Nat.mul_pos hpos (Nat.two_pow_pos e))
      have hlog : (m * 2 ^ e).log2 < 53 + e := by
        rw [Nat.log2_lt hne, Nat.pow_add]
        exact Nat.mul_lt_mul_of_pos_right hm (Nat.two_pow_pos e)
      exact Nat.dvd_mul_left_of_dvd (Nat.pow_dvd_pow 2 (by omega)) m

section Rounding

variable {num den : Nat}

theorem roundUnits_eq_mul (num den : Nat) :
    roundUnits num den = nearest num (2 ^ spacing num den * den) * 2 ^ spacing num den := by
  unfold roundUnits
  dsimp only
  rw [Nat.shiftLeft_eq, Nat.shiftLeft_eq, Nat.mul_comm den]

/-- Rounding gives a magnitude, unless the quotient comes near the largest one. -/
theorem isMagnitude_roundUnits (hden : 0 < den) (hlog : (num / den).log2 < 2097) :
    IsMagnitude (roundUnits num den) := by
  have hself := Nat.lt_log2_self (n := num / den)
  have hspacing : spacing num den = (num / den).log2 - 52 := rfl
  have hle : num ≤ 2 ^ 53 * (2 ^ spacing num den * den) := by
    rw [← Nat.mul_assoc, ← Nat.pow_add]
    refine Nat.le_of_lt ((Nat.div_lt_iff_lt_mul hden).1 (Nat.lt_of_lt_of_le hself ?_))
    exact Nat.pow_le_pow_right (by decide) (by omega)
  have hnearest : nearest num (2 ^ spacing num den * den) ≤ 2 ^ 53 :=
    nearest_le (Nat.mul_pos (Nat.two_pow_pos _) hden) hle
  rw [roundUnits_eq_mul]
  exact isMagnitude_mul hnearest (by omega)

theorem roundUnits_pos (hden : 0 < den) (hle : den ≤ num) : 0 < roundUnits num den := by
  have hquotient : num / den ≠ 0 := Nat.ne_of_gt (Nat.div_pos hle hden)
  have hspacing : 2 ^ spacing num den ≤ num / den :=
    Nat.le_trans (Nat.pow_le_pow_right (by decide) (Nat.sub_le _ _)) (Nat.log2_self_le hquotient)
  have hnearest : 1 ≤ nearest num (2 ^ spacing num den * den) :=
    le_nearest (Nat.mul_pos (Nat.two_pow_pos _) hden)
      (by rw [Nat.one_mul]; exact (Nat.le_div_iff_mul_le hden).1 hspacing)
  rw [roundUnits_eq_mul]
  exact Nat.mul_pos hnearest (Nat.two_pow_pos _)

theorem roundUnits_of_isMagnitude {units : Nat} (h : IsMagnitude units) :
    roundUnits units 1 = units := by
  obtain ⟨m, hm⟩ := h.2
  rw [Nat.shiftLeft_eq, Nat.one_mul] at hm
  have hspacing : spacing units 1 = units.log2 - 52 := by rw [spacing, Nat.div_one]
  have hpos := Nat.two_pow_pos (units.log2 - 52)
  rw [roundUnits_eq_mul, hspacing, Nat.mul_one]
  generalize 2 ^ (units.log2 - 52) = step at *
  have heq : units = m * step := by rw [hm, Nat.mul_comm]
  have hnearest : nearest units step = m :=
    Nat.le_antisymm (nearest_le hpos (Nat.le_of_eq heq)) (le_nearest hpos (Nat.le_of_eq heq.symm))
  rw [hnearest, ← heq]

end Rounding

/-! ## Integers as doubles -/

theorem compare_eq_iff {x y : Binary64} : x.compare y = .eq ↔ x.value = y.value :=
  Int.compare_eq_eq

theorem value_ofInt_of_neg {n : Int} (h : n < 0) : (ofInt n).value ≤ 0 := by
  unfold ofInt ofInt? round
  dsimp only
  split
  · simp [value, h]
  · simp [value, zero]

theorem log2_mul_lt {a bits k : Nat} (hpos : 0 < a) (ha : a < 2 ^ bits) :
    (a * 1 <<< k).log2 < bits + k := by
  rw [Nat.shiftLeft_eq, Nat.one_mul,
    Nat.log2_lt (Nat.ne_of_gt (Nat.mul_pos hpos (Nat.two_pow_pos k))), Nat.pow_add]
  exact Nat.mul_lt_mul_of_pos_right ha (Nat.two_pow_pos k)

theorem value_ofInt_pos {n : Int} (h : 0 < n) (hlt : n < 0x10000000000000000) :
    0 < (ofInt n).value := by
  have hpos : 0 < n.natAbs * one := Nat.mul_pos (by omega) (by decide)
  have hlog : (n.natAbs * one).log2 < 64 + 1074 := log2_mul_lt (by omega) (by omega)
  have hmagnitude : IsMagnitude (roundUnits (n.natAbs * one) 1) :=
    isMagnitude_roundUnits Nat.one_pos (by rw [Nat.div_one]; omega)
  have hunits : 0 < roundUnits (n.natAbs * one) 1 := roundUnits_pos Nat.one_pos hpos
  have hsign : decide (n < 0) = false := decide_eq_false (by omega)
  unfold ofInt ofInt? round
  dsimp only
  rw [dif_pos hmagnitude, hsign]
  simpa [value] using hunits

/-- Integers of 53 bits are doubles. -/
theorem value_ofInt {n : Int} (h : n.natAbs ≤ 2 ^ 53) : (ofInt n).value = n * one := by
  have hshift : ∀ e, 53 + e < 2098 → IsMagnitude (n.natAbs * 1 <<< e) := by
    intro e he
    rw [Nat.shiftLeft_eq, Nat.one_mul]
    exact isMagnitude_mul h he
  have hmagnitude : IsMagnitude (n.natAbs * one) := hshift 1074 (by omega)
  have hround := roundUnits_of_isMagnitude hmagnitude
  unfold ofInt ofInt? round
  dsimp only
  rw [hround, dif_pos hmagnitude, Option.getD_some]
  by_cases hneg : n < 0
  · simp only [value, hneg, decide_true, if_true]
    rw [Int.natCast_mul, Int.ofNat_natAbs_of_nonpos (by omega), Int.neg_mul, Int.neg_neg]
  · simp only [value, hneg, decide_false, Bool.false_eq_true, if_false]
    rw [Int.natCast_mul, Int.natAbs_of_nonneg (by omega)]

end Binary64

/-! ## Numbers -/

namespace Json.Number

section Compare

variable {x y z : Number}

theorem compare_of_unsigned {a b : Nat} (hsigned : x.int64? = none ∨ y.int64? = none)
    (hx : x.uint64? = some a) (hy : y.uint64? = some b) : x.compare y = Ord.compare a b := by
  unfold compare
  split
  · next hx' hy' =>
    rw [hx', hy'] at hsigned
    exact absurd hsigned (by simp)
  · rw [hx, hy]

/-- Two numbers that do not lie in one of the integer ranges together are compared as doubles. -/
theorem compare_of_none (hsigned : x.int64? = none ∨ y.int64? = none)
    (hunsigned : x.uint64? = none ∨ y.uint64? = none) :
    x.compare y = x.toBinary64.compare y.toBinary64 := by
  unfold compare
  split
  · next hx hy =>
    rw [hx, hy] at hsigned
    exact absurd hsigned (by simp)
  · split
    · next hx hy =>
      rw [hx, hy] at hunsigned
      exact absurd hunsigned (by simp)
    · rfl

theorem compare_of_real (h : (∃ a, x = .real a) ∨ ∃ b, y = .real b) :
    x.compare y = x.toBinary64.compare y.toBinary64 := by
  obtain ⟨a, rfl⟩ | ⟨b, rfl⟩ := h
  · exact compare_of_none (.inl rfl) (.inl rfl)
  · exact compare_of_none (.inr rfl) (.inr rfl)

/-- **The order of integers is exact**, also of one below zero and one beyond the signed range,
which are compared as doubles. -/
theorem compare_int (m n : WideInt) : compare (.int m) (.int n) = Ord.compare m.1 n.1 := by
  obtain ⟨m, hm, hm'⟩ := m
  obtain ⟨n, hn, hn'⟩ := n
  by_cases hsigned : m < 0x8000000000000000 ∧ n < 0x8000000000000000
  · simp [compare, int64?, hsigned]
  · have hs : int64? (.int ⟨m, hm, hm'⟩) = none ∨ int64? (.int ⟨n, hn, hn'⟩) = none := by
      simp only [int64?, ite_eq_right_iff, reduceCtorEq, imp_false]
      exact Decidable.not_and_iff_or_not.1 hsigned
    by_cases hunsigned : 0 ≤ m ∧ 0 ≤ n
    · have hlt : m.toNat < n.toNat ↔ m < n := by omega
      have hgt : n.toNat < m.toNat ↔ n < m := by omega
      rw [compare_of_unsigned hs (if_pos hunsigned.1) (if_pos hunsigned.2),
        Nat.compare_eq_ite_lt, Int.compare_eq_ite_lt]
      simp only [hlt, hgt]
    · have hu : uint64? (.int ⟨m, hm, hm'⟩) = none ∨ uint64? (.int ⟨n, hn, hn'⟩) = none := by
        simp only [uint64?, ite_eq_right_iff, reduceCtorEq, imp_false]
        exact Decidable.not_and_iff_or_not.1 hunsigned
      rw [compare_of_none hs hu, Binary64.compare]
      simp only [toBinary64]
      rcases Int.lt_or_le m 0 with hneg | hpos
      · have hlow := Binary64.value_ofInt_of_neg hneg
        have hhigh := Binary64.value_ofInt_pos (n := n) (by omega) hn'
        rw [Int.compare_eq_lt.2 (by omega), Int.compare_eq_lt.2 (by omega)]
      · have hlow := Binary64.value_ofInt_of_neg (n := n) (by omega)
        have hhigh := Binary64.value_ofInt_pos (n := m) (by omega) hm'
        rw [Int.compare_eq_gt.2 (by omega), Int.compare_eq_gt.2 (by omega)]

theorem compare_int_eq {m n : WideInt} : compare (.int m) (.int n) = .eq ↔ m = n := by
  rw [compare_int, Int.compare_eq_eq, Subtype.ext_iff]

theorem compare_self (x : Number) : x.compare x = .eq := by
  cases x with
  | int n => rw [compare_int_eq]
  | real a => exact Binary64.compare_eq_iff.2 rfl

theorem compare_swap (x y : Number) : (x.compare y).swap = y.compare x := by
  have hdoubles : (∃ a, x = .real a) ∨ (∃ b, y = .real b) →
      (x.compare y).swap = y.compare x := by
    intro h
    rw [compare_of_real h, compare_of_real h.symm]
    exact Int.compare_swap _ _
  cases x with
  | real a => exact hdoubles (.inl ⟨a, rfl⟩)
  | int m =>
    cases y with
    | real b => exact hdoubles (.inr ⟨b, rfl⟩)
    | int n => rw [compare_int, compare_int, Int.compare_swap]

theorem value_eq_of_compare (h : x.compare y = .eq) :
    x.toBinary64.value = y.toBinary64.value := by
  cases x with
  | real a => exact Binary64.compare_eq_iff.1 (compare_of_real (.inl ⟨a, rfl⟩) ▸ h)
  | int m =>
    cases y with
    | real b => exact Binary64.compare_eq_iff.1 (compare_of_real (.inr ⟨b, rfl⟩) ▸ h)
    | int n => rw [compare_int_eq.1 h]

/-- A double stands between two different integers. -/
def Splits (x y z : Number) : Prop :=
  ∃ m n a, m ≠ n ∧ x = .int m ∧ y = .real a ∧ z = .int n

/-- **Equality of numbers is transitive**, except through a double between two integers. -/
theorem compare_trans_iff (hxy : x.compare y = .eq) (hyz : y.compare z = .eq) :
    x.compare z = .eq ↔ ¬ Splits x y z := by
  have hvalue := (value_eq_of_compare hxy).trans (value_eq_of_compare hyz)
  have hdoubles : (∃ a, x = .real a) ∨ (∃ b, z = .real b) → x.compare z = .eq := fun h =>
    (compare_of_real h).trans (Binary64.compare_eq_iff.2 hvalue)
  cases x with
  | real a => exact iff_of_true (hdoubles (.inl ⟨a, rfl⟩)) (by rintro ⟨m, n, c, -, ⟨⟩, -⟩)
  | int m =>
    cases z with
    | real b => exact iff_of_true (hdoubles (.inr ⟨b, rfl⟩)) (by rintro ⟨m, n, c, -, -, -, ⟨⟩⟩)
    | int n =>
      cases y with
      | int k =>
        obtain rfl := compare_int_eq.1 hxy
        exact iff_of_true hyz (by rintro ⟨m, n, c, -, -, ⟨⟩, -⟩)
      | real c =>
        rw [compare_int_eq]
        constructor
        · rintro rfl ⟨m', n', -, hne, hm, -, hn⟩
          cases hm
          cases hn
          exact hne rfl
        · exact fun h => Decidable.byContradiction fun hne => h ⟨m, n, c, hne, rfl, rfl, rfl⟩

end Compare

end Json.Number

end StatesLang
