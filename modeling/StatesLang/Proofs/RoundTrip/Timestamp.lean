import Mathlib.Algebra.Group.Nat.Defs
import StatesLang.Proofs.RoundTrip.Digits
import StatesLang.Timestamp

/-!
# Timestamps read back

* `Timestamp.takeDigits_padded`, `takeFraction_render`, `takeOffset_render`: each part of a written
  timestamp is read as it was.
* **`Timestamp.parse_render`**: so is the whole timestamp.
-/

namespace StatesLang.Timestamp

open Literal (digitsValue NoDigit)

theorem padded_length {width n : Nat} (hw : 0 < width) (hn : n < 10 ^ width) :
    (padded width n).length = width := by
  have hlength := (Nat.length_toDigits_le_iff (b := 10) (by decide) hw).2 hn
  simp only [padded, List.length_append, List.length_replicate]
  omega

theorem isDigit_of_mem_padded {width n : Nat} {c : Char} (h : c ∈ padded width n) :
    c.isDigit = true := by
  rcases List.mem_append.1 h with h | h
  · rw [(List.mem_replicate.1 h).2]; decide
  · exact Literal.isDigit_of_mem_toDigits h

theorem digitsValue_padded (width n : Nat) : digitsValue (padded width n) = n :=
  Literal.digitsValue_zeros_append _ n

theorem takeDigits_padded {width n : Nat} (hw : 0 < width) (hn : n < 10 ^ width)
    (rest : List Char) : takeDigits? width (padded width n ++ rest) = some (n, rest) := by
  have hl := padded_length hw hn
  have ht : (padded width n ++ rest).take width = padded width n :=
    List.take_left' hl
  have hd : (padded width n ++ rest).drop width = rest :=
    List.drop_left' hl
  have hall : (padded width n).all Char.isDigit = true :=
    List.all_eq_true.2 fun _ => isDigit_of_mem_padded
  simp only [takeDigits?, ht, hd, hl, hall, digitsValue_padded, and_self, if_true]

theorem takeFraction_padded {width n : Nat} (hw : 0 < width) (hw' : width ≤ 9)
    (hn : n < 10 ^ width) {rest : List Char} (hr : NoDigit rest) :
    takeFraction? ('.' :: padded width n ++ rest) = some (n * Nat.pow 10 (9 - width), rest) := by
  have hl := padded_length hw hn
  have hds : (padded width n).take 9 = padded width n := List.take_of_length_le (by omega)
  have hne : padded width n ≠ [] := List.ne_nil_of_length_pos (by omega)
  simp only [takeFraction?, List.cons_append,
    Literal.takeWhile_digits (fun _ => isDigit_of_mem_padded) hr,
    Literal.dropWhile_digits (fun _ => isDigit_of_mem_padded) hr, hds, hne, if_false, hl,
    digitsValue_padded]

theorem takeFraction_render {nanosecond : Nat} (hn : nanosecond < 1000000000) {rest : List Char}
    (hr : NoDigit rest) (hp : rest.head? ≠ some '.') :
    takeFraction? (renderFraction nanosecond ++ rest) = some (nanosecond, rest) := by
  unfold renderFraction
  split
  · next h =>
    cases rest with
    | nil => simp [takeFraction?, h]
    | cons c cs =>
      have hc : c ≠ '.' := by simpa using hp
      simp [takeFraction?, h, hc]
  split
  · rw [takeFraction_padded (by decide) (by decide) (by omega) hr]
    simp only [Nat.pow_eq, Option.some.injEq, Prod.mk.injEq, and_true]
    omega
  split
  · rw [takeFraction_padded (by decide) (by decide) (by omega) hr]
    simp only [Nat.pow_eq, Option.some.injEq, Prod.mk.injEq, and_true]
    omega
  · rw [takeFraction_padded (by decide) (by decide) hn hr]
    simp

theorem takeOffset_signed {sign : Char} (hs : sign = '+' ∨ sign = '-') {hours minutes : Nat}
    (hh : hours < 100) (hm : minutes < 60) :
    takeOffset? (sign :: padded 2 hours ++ ':' :: padded 2 minutes) =
      some (if sign = '+' then (60 * hours + minutes : Int) else -(60 * hours + minutes), []) := by
  have hz : ¬ (sign = 'Z' ∨ sign = 'z') := by rcases hs with rfl | rfl <;> decide
  have hs' : sign = '+' ∨ sign = '-' ∨ sign = '−' := hs.imp_right Or.inl
  have hhours := takeDigits_padded (by decide) (show hours < 10 ^ 2 from hh)
    (':' :: padded 2 minutes)
  have hminutes := takeDigits_padded (by decide) (show minutes < 10 ^ 2 by omega) []
  rw [List.append_nil] at hminutes
  simp only [takeOffset?, List.cons_append, if_neg hz, if_pos hs', hhours, takeMark?,
    List.mem_cons, true_or, if_true, hminutes, Option.bind_eq_bind, Option.bind_some,
    if_neg (Nat.not_le.2 hm)]

theorem takeOffset_render {offset : Int} (hl : -1439 ≤ offset) (hu : offset ≤ 1439) :
    takeOffset? (renderOffset offset) = some (offset, []) := by
  unfold renderOffset
  split
  · next h => rw [h]; rfl
  · obtain ⟨n, hn⟩ : ∃ n, offset.natAbs = n := ⟨_, rfl⟩
    have hh : n / 60 < 100 := by omega
    have hm : n % 60 < 60 := by omega
    rw [hn]
    by_cases hneg : offset < 0
    · rw [if_pos hneg, takeOffset_signed (Or.inr rfl) hh hm, if_neg (by decide),
        show -(60 * ((n / 60 : Nat) : Int) + (n % 60 : Nat)) = offset by omega]
    · rw [if_neg hneg, takeOffset_signed (Or.inl rfl) hh hm, if_pos rfl,
        show 60 * ((n / 60 : Nat) : Int) + (n % 60 : Nat) = offset by omega]

theorem noDigit_renderOffset (offset : Int) : NoDigit (renderOffset offset) := by
  unfold renderOffset
  split
  · exact Literal.noDigit_cons _ (by decide)
  · exact Literal.noDigit_cons _ (by split <;> decide)

theorem head_renderOffset (offset : Int) : (renderOffset offset).head? ≠ some '.' := by
  unfold renderOffset
  split
  · decide
  · split <;> simp

/-- **A timestamp that is written reads back.** -/
theorem parse_render (t : Timestamp) : parse? t.render = some t := by
  obtain ⟨hy, hm, hm', hd, hd', hh, hmin, hs, hn, hlo, hhi⟩ := t.valid
  have hdays : daysInMonth t.year t.month ≤ 31 := by
    unfold daysInMonth
    repeat' split
    all_goals decide
  have hfraction := takeFraction_render hn (noDigit_renderOffset t.offset)
    (head_renderOffset t.offset)
  simp only [parse?, render, String.toList_ofList, List.append_assoc, List.cons_append,
    takeDigits_padded (by decide) (show t.year < 10 ^ 4 by omega),
    takeDigits_padded (by decide) (show t.month < 10 ^ 2 by omega),
    takeDigits_padded (by decide) (show t.day < 10 ^ 2 by omega),
    takeDigits_padded (by decide) (show t.hour < 10 ^ 2 by omega),
    takeDigits_padded (by decide) (show t.minute < 10 ^ 2 by omega),
    takeDigits_padded (by decide) (show t.second < 10 ^ 2 by omega),
    takeMark?, List.mem_cons, true_or, if_true, Option.bind_eq_bind, Option.bind_some,
    hfraction, takeOffset_render hlo hhi]
  exact dif_pos t.valid

end StatesLang.Timestamp
