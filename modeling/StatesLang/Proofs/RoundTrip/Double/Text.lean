import StatesLang.Proofs.Grammar.Number
import StatesLang.Proofs.RoundTrip.Digits
import StatesLang.Proofs.RoundTrip.Double.Shortest

/-!
# The text of a double reads back

* `Binary64.ofDecimal_of_holds`: a decimal in the interval of a double is read as the double.
* `Literal.integer?_toDigits`, `Literal.int64?_toString`: integers read back.
* `Literal.magnitude?_render`: a magnitude is read as its decimal, perhaps with zeros at the end.
* **`Literal.decimal?_render`**: the text of a double in any notation is read as the double.
-/

namespace StatesLang

/-! ## Rounding back -/

namespace Binary64

open Shortest (Holds interval tenPow tenPow_pos)

theorem two_pow_mul_le {a b c d : Nat} (h : a + b ≤ c + d) : 2 ^ a * 2 ^ b ≤ 2 ^ c * 2 ^ d := by
  rw [← Nat.pow_add, ← Nat.pow_add]
  exact Nat.pow_le_pow_right (by decide) h

theorem ten_pow_le_of_log2 {digits n : Nat} (hdigits : digits ≠ 0) (h : n ≤ digits.log2 / 4) :
    10 ^ n ≤ digits :=
  calc 10 ^ n ≤ (2 ^ 4) ^ n := Nat.pow_le_pow_left (by decide) n
    _ = 2 ^ (4 * n) := (Nat.pow_mul ..).symm
    _ ≤ 2 ^ digits.log2 := Nat.pow_le_pow_right (by decide) (by omega)
    _ ≤ digits := Nat.log2_self_le hdigits

theorem bounds_of_holds {units : Nat} (h : IsMagnitude units) (hpos : 0 < units) {d : Decimal}
    (hd : Holds (interval units) d) :
    (tenPow d.exponent).2 ≤ 2 * (d.digits * (tenPow d.exponent).1 * one) ∧
      d.digits * (tenPow d.exponent).1 ≤ 2 ^ 1024 * (tenPow d.exponent).2 := by
  obtain ⟨m, hm⟩ := exists_significand h hpos
  have hexp : units.log2 - 52 ≤ 2045 := by
    have := (Nat.log2_lt (Nat.ne_of_gt hpos)).2 (Nat.lt_of_lt_of_eq h.1 (Nat.one_shiftLeft 2098))
    omega
  obtain ⟨hlow, hhigh, -⟩ := hm.bounds hd
  generalize units.log2 - 52 = e at *
  generalize (tenPow d.exponent).2 = b at *
  have hbelow : below m e * b ≤ 2 * (2 ^ e * b) := by
    rw [← Nat.mul_assoc]
    exact Nat.mul_le_mul_right b (below_le m e)
  have hstep : b ≤ 2 ^ e * b := Nat.le_mul_of_pos_left b (Nat.two_pow_pos e)
  have hone := Nat.mul_le_mul_right (2 ^ e * b) hm.pos
  have hmax := Nat.mul_le_mul_right (2 ^ e * b) (show m + 1 ≤ 2 ^ 53 from hm.lt)
  rw [Nat.succ_mul m] at hmax
  have hbound : ∀ c, 2 ^ 53 * 2 ^ e ≤ c * one → d.digits * (tenPow d.exponent).1 ≤ c * b := by
    intro c hc
    refine Nat.le_of_mul_le_mul_right ?_ (show 0 < one by decide)
    calc d.digits * (tenPow d.exponent).1 * one ≤ 2 ^ 53 * (2 ^ e * b) := by omega
      _ = 2 ^ 53 * 2 ^ e * b := (Nat.mul_assoc ..).symm
      _ ≤ c * one * b := Nat.mul_le_mul_right b hc
      _ = c * b * one := Nat.mul_right_comm ..
  refine ⟨by omega, hbound _ ?_⟩
  calc 2 ^ 53 * 2 ^ e ≤ 2 ^ 1024 * 2 ^ 1074 := two_pow_mul_le (by omega)
    _ = 2 ^ 1024 * one := by rw [one, Nat.one_shiftLeft]

theorem two_pow_lt {a n : Nat} (h : a < 3 * n) : 2 ^ a < 10 ^ n :=
  calc 2 ^ a < 2 ^ (3 * n) := Nat.pow_lt_pow_right (by decide) h
    _ = (2 ^ 3) ^ n := Nat.pow_mul ..
    _ ≤ 10 ^ n := Nat.pow_le_pow_left (by decide) n

theorem two_units : 2 * one = 2 ^ 1075 := by decide +kernel

/-- Digits and exponents that are cut off are those of no double but zero. -/
theorem exponent_of_bounds {digits : Nat} {e : Int} (hdigits : digits ≠ 0)
    (hlow : (tenPow e).2 ≤ 2 * (digits * (tenPow e).1 * one))
    (hhigh : digits * (tenPow e).1 ≤ 2 ^ 1024 * (tenPow e).2) :
    ¬ 400 < (digits.log2 : Int) / 4 + e ∧ ¬ (digits.log2 : Int) + e < -500 := by
  have hlead := ten_pow_le_of_log2 hdigits (Nat.le_refl _)
  have hlog := Nat.lt_log2_self (n := digits)
  unfold tenPow at hlow hhigh
  split at hlow
  · next he =>
    rw [if_pos he] at hhigh
    obtain ⟨k, rfl⟩ := Int.eq_ofNat_of_zero_le he
    dsimp only at hhigh
    rw [Nat.mul_one] at hhigh
    refine ⟨fun hbig => ?_, by omega⟩
    have hgreat := two_pow_lt (show 1024 < 3 * (digits.log2 / 4 + k) by omega)
    refine Nat.not_lt.2 (Nat.le_trans ?_ hhigh) hgreat
    rw [Nat.pow_add]
    exact Nat.mul_le_mul_right _ hlead
  · next he =>
    rw [if_neg he] at hhigh
    generalize hk : (-e).toNat = k at hlow hhigh
    dsimp only at hlow hhigh
    rw [Nat.mul_one] at hlow hhigh
    constructor
    · intro hbig
      have hpos : 0 < 10 ^ k := Nat.pow_pos (by decide)
      have hgreat := two_pow_lt (show 1024 < 3 * (digits.log2 / 4 - k) by omega)
      refine Nat.not_lt.2 (Nat.le_of_mul_le_mul_right (Nat.le_trans ?_ hhigh) hpos) hgreat
      show 10 ^ (digits.log2 / 4 - k) * 10 ^ k ≤ digits
      rw [← Nat.pow_add]
      exact ten_pow_le_of_log2 hdigits (by omega)
    · intro hless
      have hpos : 0 < 10 ^ (digits.log2 + 1) := Nat.pow_pos (by decide)
      have hsmall := two_pow_lt (show 1075 < 3 * (k - (digits.log2 + 1)) by omega)
      rw [← two_units] at hsmall
      refine Nat.not_lt.2 (Nat.le_of_mul_le_mul_right ?_ hpos) hsmall
      calc 10 ^ (k - (digits.log2 + 1)) * 10 ^ (digits.log2 + 1) = 10 ^ k := by
            rw [← Nat.pow_add, Nat.sub_add_cancel (by omega)]
        _ ≤ 2 * (digits * one) := hlow
        _ = 2 * one * digits := by rw [Nat.mul_comm digits, Nat.mul_assoc]
        _ ≤ 2 * one * 10 ^ (digits.log2 + 1) :=
          Nat.mul_le_mul_left _
            (Nat.le_trans (Nat.le_of_lt hlog) (Nat.pow_le_pow_left (by decide) _))

/-- **A decimal in the interval of a double is read as the double.** -/
theorem ofDecimal_of_holds {x : Binary64} (hx : x.units ≠ 0) {d : Decimal}
    (hd : Holds (interval x.units) d) :
    ofDecimal x.negative d.digits d.exponent = some x := by
  have hpos := Nat.pos_of_ne_zero hx
  obtain ⟨hlow, hhigh⟩ := bounds_of_holds x.representable hpos hd
  obtain ⟨m, hm⟩ := exists_significand x.representable hpos
  have hden := tenPow_pos d.exponent
  have hdigits : d.digits ≠ 0 := by
    intro h0
    rw [h0, Nat.zero_mul, Nat.zero_mul] at hlow
    omega
  obtain ⟨hbig, hsmall⟩ := exponent_of_bounds hdigits hlow hhigh
  have hround : round x.negative (d.digits * (tenPow d.exponent).1 * one) (tenPow d.exponent).2 =
      some x := by
    unfold round
    dsimp only
    rw [hm.roundUnits_eq hden hd, dif_pos x.representable]
  unfold ofDecimal
  dsimp only
  rw [if_neg hdigits, if_neg hbig, if_neg hsmall]
  unfold tenPow at hround
  split at hround
  · next he => rwa [if_pos he]
  · next he => rwa [if_neg he, Nat.mul_one] at *

end Binary64

/-! ## Integers -/

namespace Literal

theorem splitSign_digits {ds : List Char} (hd : ∀ c ∈ ds, c.isDigit = true) :
    splitSign ds = (false, ds) := by
  unfold splitSign
  split
  · exact absurd (hd '-' List.mem_cons_self) (by decide)
  · exact absurd (hd '+' List.mem_cons_self) (by decide)
  · rfl

theorem integer?_toDigits {sign : List Char} {n : Int}
    (hsign : if n < 0 then sign = ['-'] else sign = [] ∨ sign = ['+']) :
    integer? (sign ++ Nat.toDigits 10 n.natAbs) = some n := by
  have hd : ∀ c ∈ Nat.toDigits 10 n.natAbs, c.isDigit = true :=
    fun c hc => isDigit_of_mem_toDigits hc
  have hnat : natural? (Nat.toDigits 10 n.natAbs) = some n.natAbs :=
    natural?_eq_some.2 ⟨Nat.toDigits_ne_nil, hd, (digitsValue_toDigits _).symm⟩
  have hread : ∀ cs negative, splitSign cs = (negative, Nat.toDigits 10 n.natAbs) →
      integer? cs = some (if negative then -(n.natAbs : Int) else n.natAbs) := by
    intro cs negative hsplit
    rw [integer?, hsplit]
    dsimp only
    rw [hnat]
    rfl
  split at hsign
  · next hn =>
    rw [hsign, hread _ true rfl, if_pos rfl]
    congr 1
    omega
  · next hn =>
    rcases hsign with rfl | rfl
    · rw [List.nil_append, hread _ false (splitSign_digits hd), if_neg (by decide)]
      congr 1
      omega
    · rw [hread _ false rfl, if_neg (by decide)]
      congr 1
      omega

theorem int64?_toString (n : Int64) : int64? (toString n.toInt).toList = some n := by
  have htext : (toString n.toInt).toList =
      (if n.toInt < 0 then ['-'] else []) ++ Nat.toDigits 10 n.toInt.natAbs := by
    rw [Int.toString_eq_repr, Int.repr_eq_if]
    split
    · next hn =>
      rw [if_neg (by omega), Nat.toList_repr, List.nil_append]
      congr 1
      omega
    · next hn =>
      rw [if_pos (by omega), String.toList_append, Nat.toList_repr]
      congr 2
      omega
  have hread : integer? (toString n.toInt).toList = some n.toInt := by
    rw [htext]
    refine integer?_toDigits ?_
    split
    · rfl
    · exact .inl rfl
  have hlow := n.le_toInt
  have hhigh := n.toInt_lt
  unfold int64?
  rw [hread]
  dsimp only
  rw [if_pos (by omega), Int64.ofInt_toInt]

/-! ## Decimals -/

theorem exponent?_toDigits {sign : List Char} {n : Int}
    (hsign : if n < 0 then sign = ['-'] else sign = [] ∨ sign = ['+']) :
    exponent? ('e' :: (sign ++ Nat.toDigits 10 n.natAbs)) = some n := by
  rw [exponent?, if_pos (.inl rfl), integer?_toDigits hsign]

theorem noDigit_of_exponent? {rest : List Char} {e : Int} (h : exponent? rest = some e) :
    NoDigit rest ∧ rest.head? ≠ some '.' := by
  cases rest with
  | nil => exact ⟨nofun, nofun⟩
  | cons c rest =>
    rw [exponent?] at h
    split_ifs at h with hc
    rcases hc with rfl | rfl
    · exact ⟨noDigit_cons _ (by decide), by simp⟩
    · exact ⟨noDigit_cons _ (by decide), by simp⟩

theorem magnitude?_whole (negative : Bool) {whole rest : List Char} {e : Int}
    (hw : ∀ c ∈ whole, c.isDigit = true) (hne : whole ≠ []) (he : exponent? rest = some e) :
    magnitude? negative (whole ++ rest) =
      some (.ofDecimal negative (digitsValue whole) e) := by
  obtain ⟨hr, hdot⟩ := noDigit_of_exponent? he
  have hfraction : fraction? rest = some ([], e) := by
    unfold fraction?
    split
    · exact absurd rfl hdot
    · rw [he]
      rfl
  unfold magnitude?
  dsimp only
  rw [takeWhile_digits hw hr, dropWhile_digits hw hr, hfraction]
  dsimp only
  rw [if_neg (fun h => hne h.1), List.append_nil, List.length_nil, Int.natCast_zero, Int.sub_zero]

theorem magnitude?_point (negative : Bool) {whole fraction rest : List Char} {e : Int}
    (hw : ∀ c ∈ whole, c.isDigit = true) (hf : ∀ c ∈ fraction, c.isDigit = true)
    (hne : whole ≠ []) (he : exponent? rest = some e) :
    magnitude? negative (whole ++ '.' :: (fraction ++ rest)) =
      some (.ofDecimal negative (digitsValue (whole ++ fraction)) (e - fraction.length)) := by
  obtain ⟨hr, -⟩ := noDigit_of_exponent? he
  have hpoint : NoDigit ('.' :: (fraction ++ rest)) := noDigit_cons _ (by decide)
  unfold magnitude?
  dsimp only
  rw [takeWhile_digits hw hpoint, dropWhile_digits hw hpoint, fraction?, takeWhile_digits hf hr,
    dropWhile_digits hf hr, he]
  dsimp only [Option.map_some]
  rw [if_neg (fun h => hne h.1)]

theorem digitsValue_zeros (n k : Nat) :
    digitsValue (Nat.toDigits 10 n ++ List.replicate k '0') = n * 10 ^ k := by
  rw [digitsValue_eq, Nat.ofDigitChars_append, Nat.ofDigitChars_ten_toDigits,
    Nat.ofDigitChars_replicate_zero, Nat.mul_comm]

theorem isDigit_of_mem_zeros {c : Char} {k : Nat} (hc : c ∈ List.replicate k '0') :
    c.isDigit = true := by
  rw [List.eq_of_mem_replicate hc]
  decide

section

variable (n : Notation) (negative : Bool) (digits : Nat) (e : Int)

theorem magnitude?_wholeNumber (zeros : Nat) :
    ∃ k : Nat, magnitude? negative (Nat.toDigits 10 digits ++ List.replicate zeros '0' ++
        if n.pointZero then ['.', '0'] else []) =
      some (.ofDecimal negative (digits * 10 ^ k) (zeros - k)) := by
  have hend : exponent? [] = some 0 := rfl
  have hwhole : ∀ c ∈ Nat.toDigits 10 digits ++ List.replicate zeros '0', c.isDigit = true := by
    intro c hc
    rcases List.mem_append.1 hc with hc | hc
    · exact isDigit_of_mem_toDigits hc
    · exact isDigit_of_mem_zeros hc
  have hne : Nat.toDigits 10 digits ++ List.replicate zeros '0' ≠ [] := by
    simp [Nat.toDigits_ne_nil]
  split
  · have hvalue : digitsValue (Nat.toDigits 10 digits ++ List.replicate zeros '0' ++ ['0']) =
        digits * 10 ^ (zeros + 1) := by
      rw [List.append_assoc, ← List.replicate_one, List.replicate_append_replicate,
        digitsValue_zeros]
    have h := magnitude?_point negative hwhole (fun c => isDigit_of_mem_zeros (k := 1)) hne hend
    rw [List.append_nil, List.replicate_one, hvalue] at h
    refine ⟨zeros + 1, h.trans ?_⟩
    rw [show (zeros : Int) - (zeros + 1 : Nat) = 0 - (['0'].length : Int) by
      rw [List.length_singleton]; omega]
  · have h := magnitude?_whole negative hwhole hne hend
    rw [digitsValue_zeros] at h
    refine ⟨zeros, ?_⟩
    rw [Int.sub_self]
    exact h

theorem magnitude?_pointInside {l : Nat} (hl : 0 < l) :
    magnitude? negative
        ((Nat.toDigits 10 digits).take l ++ '.' :: (Nat.toDigits 10 digits).drop l) =
      some (.ofDecimal negative digits (0 - ((Nat.toDigits 10 digits).length - l : Nat))) := by
  have hwhole : ∀ c ∈ (Nat.toDigits 10 digits).take l, c.isDigit = true :=
    fun c hc => isDigit_of_mem_toDigits (List.mem_of_mem_take hc)
  have hfraction : ∀ c ∈ (Nat.toDigits 10 digits).drop l, c.isDigit = true :=
    fun c hc => isDigit_of_mem_toDigits (List.mem_of_mem_drop hc)
  have hne : (Nat.toDigits 10 digits).take l ≠ [] := by
    rw [Ne, List.take_eq_nil_iff, not_or]
    exact ⟨by omega, Nat.toDigits_ne_nil⟩
  have hend : exponent? [] = some 0 := rfl
  have h := magnitude?_point negative hwhole hfraction hne hend
  rwa [List.append_nil, List.take_append_drop, digitsValue_toDigits, List.length_drop] at h

theorem magnitude?_pointBefore (zeros : Nat) :
    magnitude? negative ('0' :: '.' :: List.replicate zeros '0' ++ Nat.toDigits 10 digits) =
      some (.ofDecimal negative digits (0 - (zeros + (Nat.toDigits 10 digits).length : Nat))) := by
  have hfraction : ∀ c ∈ List.replicate zeros '0' ++ Nat.toDigits 10 digits, c.isDigit = true := by
    intro c hc
    rcases List.mem_append.1 hc with hc | hc
    · exact isDigit_of_mem_zeros hc
    · exact isDigit_of_mem_toDigits hc
  have hend : exponent? [] = some 0 := rfl
  have h := magnitude?_point negative (fun c => isDigit_of_mem_zeros (k := 1)) hfraction (by simp)
    hend
  rwa [List.append_nil, ← List.append_assoc, List.replicate_append_replicate,
    digitsValue_zeros_append, List.length_append, List.length_replicate] at h

theorem magnitude?_positional :
    ∃ k : Nat, magnitude? negative (n.positional (Nat.toDigits 10 digits) e) =
      some (.ofDecimal negative (digits * 10 ^ k) (e - k)) := by
  unfold Notation.positional
  dsimp only
  split
  · next he =>
    obtain ⟨k, h⟩ := magnitude?_wholeNumber n negative digits e.toNat
    rw [Int.toNat_of_nonneg he] at h
    exact ⟨k, h⟩
  · next he =>
    refine ⟨0, ?_⟩
    rw [Nat.pow_zero, Nat.mul_one, Int.natCast_zero, Int.sub_zero]
    split
    · next hlead =>
      refine (magnitude?_pointInside negative digits (by omega)).trans ?_
      congr 2
      omega
    · next hlead =>
      refine (magnitude?_pointBefore negative digits _).trans ?_
      congr 2
      omega

theorem magnitude?_scientific :
    magnitude? negative (n.scientific (Nat.toDigits 10 digits) e) =
      some (.ofDecimal negative digits e) := by
  have hd : ∀ c ∈ Nat.toDigits 10 digits, c.isDigit = true := fun c hc => isDigit_of_mem_toDigits hc
  have hvalue := digitsValue_toDigits digits
  obtain ⟨d, ds, hds⟩ := List.exists_cons_of_ne_nil (Nat.toDigits_ne_nil (n := digits) (b := 10))
  rw [hds] at hd hvalue ⊢
  unfold Notation.scientific
  dsimp only
  generalize hk : e + ((d :: ds).length : Int) - 1 = k
  generalize hsign : (if k < 0 then ['-'] else if n.signedExponent then ['+'] else []) = sign
  have hexp : exponent? ('e' :: (sign ++ Notation.digits k.natAbs)) = some k := by
    refine exponent?_toDigits ?_
    rw [← hsign]
    split
    · rfl
    · split
      · exact .inr rfl
      · exact .inl rfl
  rw [List.append_assoc, List.cons_append]
  cases ds with
  | nil =>
    have h := magnitude?_whole negative hd nofun hexp
    rw [hvalue] at h
    refine h.trans ?_
    congr 2
    rw [List.length_singleton] at hk
    omega
  | cons d' ds =>
    have hwhole : ∀ c ∈ [d], c.isDigit = true :=
      fun c hc => hd c (List.mem_cons.2 (.inl (List.mem_singleton.1 hc)))
    have hfraction : ∀ c ∈ d' :: ds, c.isDigit = true :=
      fun c hc => hd c (List.mem_cons_of_mem d hc)
    have h := magnitude?_point negative hwhole hfraction nofun hexp
    rw [List.singleton_append, List.singleton_append, hvalue] at h
    refine h.trans ?_
    congr 2
    rw [List.length_cons] at hk
    omega

theorem magnitude?_render (d : Decimal) :
    ∃ k : Nat, magnitude? negative (n.magnitude d) =
      some (.ofDecimal negative (d.digits * 10 ^ k) (d.exponent - k)) := by
  unfold Notation.magnitude
  dsimp only
  split
  · exact magnitude?_positional n negative d.digits d.exponent
  · refine ⟨0, ?_⟩
    rw [Nat.pow_zero, Nat.mul_one, Int.natCast_zero, Int.sub_zero]
    exact magnitude?_scientific n negative d.digits d.exponent

end

theorem decimal?_of_magnitude? {negative : Bool} {cs : List Char} {y : Extended}
    (h : magnitude? negative cs = some y) :
    decimal? ((if negative then ['-'] else []) ++ cs) = some y := by
  cases negative with
  | true => exact h
  | false =>
    have hsplit : splitSign cs = (false, cs) := by
      unfold splitSign
      split
      · cases h
      · cases h
      · rfl
    rw [if_neg (by decide), List.nil_append, decimal?, hsplit]
    exact h

/-- **The text of a double is read as the double**, in every notation. -/
theorem decimal?_render (n : Notation) (x : Binary64) :
    decimal? (x.render n).toList = some (.finite x) := by
  obtain ⟨k, hk⟩ := magnitude?_render n x.negative (x.shortest n.tie)
  rw [Binary64.render, String.toList_ofList]
  refine (decimal?_of_magnitude? hk).trans ?_
  have hx : Binary64.ofDecimal x.negative ((x.shortest n.tie).digits * 10 ^ k)
      ((x.shortest n.tie).exponent - k) = some x := by
    by_cases hzero : x.units = 0
    · obtain ⟨negative, units, hu⟩ := x
      dsimp only at hzero
      subst hzero
      rw [Binary64.shortest, if_pos rfl]
      dsimp only
      rw [Nat.zero_mul]
      rfl
    · have hholds := Binary64.holds_shortest n.tie x hzero
      refine Binary64.ofDecimal_of_holds hzero ((Shortest.holds_shift _ k _).2 ?_)
      rwa [Int.sub_add_cancel]
  rw [Extended.ofDecimal, hx]

/-! ## Doubles are no integers -/

theorem mem_splitSign {c : Char} {cs : List Char} (hc : c ∈ cs) (hminus : c ≠ '-')
    (hplus : c ≠ '+') : c ∈ (splitSign cs).2 := by
  unfold splitSign
  split
  · exact (List.mem_cons.1 hc).resolve_left hminus
  · exact (List.mem_cons.1 hc).resolve_left hplus
  · exact hc

theorem int64?_eq_none {c : Char} {cs : List Char} (hc : c ∈ cs) (hd : c.isDigit = false)
    (hminus : c ≠ '-') (hplus : c ≠ '+') : int64? cs = none := by
  have hnat : natural? (splitSign cs).2 = none := by
    refine Option.eq_none_iff_forall_ne_some.2 fun n h => ?_
    have hdigit := (natural?_eq_some.1 h).2.1 c (mem_splitSign hc hminus hplus)
    rw [hd] at hdigit
    cases hdigit
  rw [int64?, integer?]
  dsimp only
  rw [hnat]
  rfl

theorem exists_mark {n : Notation} (hn : n.pointZero = true) (d : Decimal) :
    '.' ∈ n.magnitude d ∨ 'e' ∈ n.magnitude d := by
  unfold Notation.magnitude Notation.positional Notation.scientific
  dsimp only
  rw [if_pos hn]
  split
  · left
    split
    · simp
    · split
      · simp
      · simp
  · right
    simp

/-- In a notation that ends whole numbers in `.0`, no double is read as an integer. -/
theorem int64?_render {n : Notation} (hn : n.pointZero = true) (x : Binary64) :
    int64? (x.render n).toList = none := by
  rw [Binary64.render, String.toList_ofList]
  rcases exists_mark hn (x.shortest n.tie) with h | h
  · exact int64?_eq_none (List.mem_append_right _ h) (by decide) (by decide) (by decide)
  · exact int64?_eq_none (List.mem_append_right _ h) (by decide) (by decide) (by decide)

end Literal

end StatesLang
