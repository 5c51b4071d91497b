import StatesLang.Proofs.RoundTrip.Number

/-!
# Numbers as values of a text

* `Json.IsNumeral`: the characters of which numbers are made.
* `Json.readValue_append`: a numeral that reads as a number by itself does so inside a text.
* **`Json.readValue_int`**, **`Json.readValue_real`**: so integers are read as they were, and
  doubles that read back by themselves.
-/

namespace StatesLang.Json

/-! ## Numbers as values -/

/-- The characters of which numbers are made. -/
def IsNumeral (c : Char) : Prop :=
  c.isDigit = true ∨ c ∈ ['-', '+', '.', 'e']

theorem IsNumeral.not_blank {c : Char} (h : IsNumeral c) :
    c ≠ ' ' ∧ c ≠ '\n' ∧ c ≠ '\t' ∧ c ≠ '\r' := by
  rcases h with h | h
  · refine ⟨?_, ?_, ?_, ?_⟩ <;> rintro rfl <;> exact absurd h (by decide)
  · simp only [List.mem_cons, List.not_mem_nil, or_false] at h
    rcases h with rfl | rfl | rfl | rfl <;> decide

theorem skipBlanks_of_numeral {c : Char} (h : IsNumeral c) (cs : List Char) :
    skipBlanks (c :: cs) = c :: cs := by
  have hb := h.not_blank
  exact List.dropWhile_cons_of_neg (by simp [hb])

theorem readValue_minus (fuel : Nat) (cs : List Char) :
    readValue (fuel + 1) ('-' :: cs) = (scanNumber true cs).outline .number := by
  rw [readValue, skipBlanks_of_numeral (Or.inr (by simp))]
  rfl

theorem readValue_digit (fuel : Nat) {c : Char} (hc : c.isDigit = true) (cs : List Char) :
    readValue (fuel + 1) (c :: cs) = (scanNumber false (c :: cs)).outline .number := by
  rw [readValue, skipBlanks_of_numeral (Or.inl hc)]
  have hne : ∀ d rest, d.isDigit = false → c :: cs ≠ d :: rest := by
    intro d rest hd he
    rw [(List.cons.inj he).1, hd] at hc
    cases hc
  split
  · next he => cases he
  · next rest he => exact absurd he (hne _ rest (by decide))
  · next rest he => exact absurd he (hne _ rest (by decide))
  · next rest he => exact absurd he (hne _ rest (by decide))
  · next rest he => exact absurd he (hne _ rest (by decide))
  · next rest he => exact absurd he (hne _ rest (by decide))
  · next rest he => exact absurd he (hne _ rest (by decide))
  · next rest he => exact absurd he (hne _ rest (by decide))
  · next he =>
    obtain ⟨rfl, rfl⟩ := List.cons.inj he
    rw [if_pos hc]

theorem eq_value_of_outline {t : Token Number} {n : Number}
    (h : (t.outline Syntax.number).1 = .number n) : ∃ r, t = .value n r := by
  cases t with
  | value a r => exact ⟨r, by rw [Syntax.number.inj h]⟩
  | unfit e r => cases h
  | broken f => cases h

/-- A scan that leaves only blanks behind a numeral leaves nothing. -/
theorem scanNumber_append {negative : Bool} {cs r : List Char} {n : Number}
    (hcs : ∀ c ∈ cs, IsNumeral c) (h : scanNumber negative cs = .value n r)
    (hr : skipBlanks r = []) {rest : List Char} (hrest : Ends rest) :
    scanNumber negative (cs ++ rest) = .value n rest := by
  obtain ⟨used, rfl, hlocal⟩ := isLocal_scanNumber negative cs n r h
  cases r with
  | nil => rw [List.append_nil, hlocal rest hrest]
  | cons c r =>
    rw [skipBlanks_of_numeral (hcs c (by simp))] at hr
    cases hr

/-- A numeral that reads as a number by itself does so before any other end. -/
theorem readValue_append {fuel fuel' : Nat} {cs : List Char} {n : Number}
    (hcs : ∀ c ∈ cs, IsNumeral c) (h : (readValue (fuel + 1) cs).1 = .number n)
    (hr : ∀ r, (readValue (fuel + 1) cs).2 = some r → skipBlanks r = []) {rest : List Char}
    (hrest : Ends rest) : readValue (fuel' + 1) (cs ++ rest) = (.number n, some rest) := by
  cases cs with
  | nil => cases h
  | cons c cs =>
    by_cases hc : c.isDigit = true
    · rw [readValue_digit fuel hc] at h hr
      obtain ⟨r, hscan⟩ := eq_value_of_outline h
      have hblank := hr r (by rw [hscan]; rfl)
      rw [List.cons_append, readValue_digit fuel' hc, ← List.cons_append,
        scanNumber_append hcs hscan hblank hrest]
      rfl
    by_cases hm : c = '-'
    · subst hm
      rw [readValue_minus] at h hr
      obtain ⟨r, hscan⟩ := eq_value_of_outline h
      have hblank := hr r (by rw [hscan]; rfl)
      rw [List.cons_append, readValue_minus,
        scanNumber_append (fun c hc => hcs c (by simp [hc])) hscan hblank hrest]
      rfl
    · have hstop : readValue (fuel + 1) (c :: cs) = stopped .expectedValue := by
        rcases hcs c (by simp) with hd | hd
        · exact absurd hd hc
        · simp only [List.mem_cons, List.not_mem_nil, or_false] at hd
          rcases hd with rfl | rfl | rfl | rfl
          · exact absurd rfl hm
          · rfl
          · rfl
          · rfl
      rw [hstop] at h
      cases h

/-! ## Texts of numbers -/

theorem isNumeral_digits (k : Nat) : ∀ c ∈ Notation.digits k, IsNumeral c :=
  fun _ hc => Or.inl (Literal.isDigit_of_mem_toDigits hc)

theorem isNumeral_positional {ds : List Char} (hds : ∀ c ∈ ds, IsNumeral c) (exponent : Int) :
    ∀ c ∈ Notation.document.positional ds exponent, IsNumeral c := by
  have hzero : IsNumeral '0' := Or.inl (by decide)
  have hpoint : IsNumeral '.' := Or.inr (by simp)
  have hzeros : ∀ k, ∀ c ∈ List.replicate k '0', IsNumeral c := by
    intro k c hc
    rw [(List.mem_replicate.1 hc).2]
    exact hzero
  intro c hc
  unfold Notation.positional at hc
  dsimp only at hc
  split at hc
  · simp only [Notation.document, if_true, List.mem_append, List.mem_cons, List.not_mem_nil,
      or_false] at hc
    rcases hc with (hc | hc) | rfl | rfl
    · exact hds c hc
    · exact hzeros _ c hc
    · exact hpoint
    · exact hzero
  · split at hc
    · rcases List.mem_append.1 hc with hc | hc
      · exact hds c (List.mem_of_mem_take hc)
      · rcases List.mem_cons.1 hc with rfl | hc
        · exact hpoint
        · exact hds c (List.mem_of_mem_drop hc)
    · simp only [List.cons_append, List.mem_cons, List.mem_append] at hc
      rcases hc with rfl | rfl | hc | hc
      · exact hzero
      · exact hpoint
      · exact hzeros _ c hc
      · exact hds c hc

theorem isNumeral_scientific {ds : List Char} (hds : ∀ c ∈ ds, IsNumeral c) (exponent : Int) :
    ∀ c ∈ Notation.document.scientific ds exponent, IsNumeral c := by
  intro c hc
  unfold Notation.scientific at hc
  simp only [List.mem_append, List.mem_cons] at hc
  rcases hc with (hc | rfl | hc) | hc
  · split at hc
    · cases hc
    · exact hds c hc
    · next d rest _ =>
      simp only [List.mem_cons] at hc
      rcases hc with rfl | rfl | hc
      · exact hds c (by simp)
      · exact Or.inr (by simp)
      · exact hds c (by simp [hc])
  · exact Or.inr (by simp)
  · split at hc
    · rw [List.mem_singleton.1 hc]
      exact Or.inr (by simp)
    · rw [Notation.document, if_pos rfl, List.mem_singleton] at hc
      rw [hc]
      exact Or.inr (by simp)
  · exact isNumeral_digits _ c hc

theorem isNumeral_render (x : Binary64) : ∀ c ∈ (x.render .document).toList, IsNumeral c := by
  intro c hc
  rw [Binary64.render, String.toList_ofList] at hc
  rcases List.mem_append.1 hc with hc | hc
  · split at hc
    · rw [List.mem_singleton.1 hc]
      exact Or.inr (by simp)
    · cases hc
  · unfold Notation.magnitude at hc
    dsimp only at hc
    split at hc
    · exact isNumeral_positional (isNumeral_digits _) _ c hc
    · exact isNumeral_scientific (isNumeral_digits _) _ c hc

theorem read_of_parse {s : String} {j : Json} (h : parse? s = .ok j) :
    (Text.read s).root.toJson = j ∧ (Text.read s).trailing = false := by
  simp only [parse?, bind, Except.bind] at h
  split at h
  · cases h
  · split at h
    · cases h
    · next ht => exact ⟨Except.ok.inj h, Bool.eq_false_iff.2 ht⟩

theorem Syntax.eq_number {s : Syntax} {n : Number} (h : s.toJson = .number n) : s = .number n := by
  cases s <;> simp_all [Syntax.toJson]

theorem root_read (s : String) :
    (Text.read s).root = (readValue (3 * s.toList.length + 3) s.toList).1 := by
  unfold Text.read
  dsimp only
  split <;> simp_all

theorem skipBlanks_of_read {s : String} (h : (Text.read s).trailing = false) {r : List Char}
    (hr : (readValue (3 * s.toList.length + 3) s.toList).2 = some r) : skipBlanks r = [] := by
  unfold Text.read at h
  dsimp only at h
  split at h
  · simp_all
  · next he =>
    rw [he] at hr
    cases hr
    simpa using h

theorem readValue_real {x : Binary64}
    (hx : parse? (x.render .document) = .ok (.number (.real x))) (fuel : Nat) {rest : List Char}
    (hr : Ends rest) :
    readValue (fuel + 1) ((x.render .document).toList ++ rest) =
      (.number (.real x), some rest) := by
  obtain ⟨hroot, htrailing⟩ := read_of_parse hx
  have hvalue := Syntax.eq_number hroot
  rw [root_read] at hvalue
  exact readValue_append (isNumeral_render x) hvalue (fun _ => skipBlanks_of_read htrailing) hr

theorem readValue_int (n : WideInt) (fuel : Nat) {rest : List Char} (hr : Ends rest) :
    readValue (fuel + 1) ((toString n.1).toList ++ rest) = (.number (.int n), some rest) := by
  obtain ⟨n, hlo, hhi⟩ := n
  dsimp only
  rw [Int.toString_eq_repr, Int.repr_eq_if]
  split
  · next hn =>
    obtain ⟨k, rfl⟩ : ∃ k : Nat, n = (k : Int) := ⟨n.natAbs, by omega⟩
    have hscan := scanNumber_toDigits false (show k < 0x10000000000000000 by omega) hr
    obtain ⟨d, ds, hds⟩ := List.exists_cons_of_ne_nil (Nat.toDigits_ne_nil (n := k) (b := 10))
    have hd : d.isDigit = true := Literal.isDigit_of_mem_toDigits (n := k) (by rw [hds]; simp)
    rw [hds] at hscan
    rw [Int.toNat_natCast, Nat.toList_repr, hds, List.cons_append, readValue_digit fuel hd,
      ← List.cons_append, hscan]
    rw [Token.outline, wholeNumber, if_neg (by decide), Number.ofInt, dif_pos ⟨hlo, hhi⟩]
  · next hn =>
    obtain ⟨k, rfl⟩ : ∃ k : Nat, n = -(k : Int) := ⟨n.natAbs, by omega⟩
    rw [Int.neg_neg, Int.toNat_natCast, String.toList_append, Nat.toList_repr]
    have hscan := scanNumber_toDigits true (show k < 0x10000000000000000 by omega) hr
    rw [show "-".toList = ['-'] from rfl, List.append_assoc, List.singleton_append,
      readValue_minus, hscan]
    have hk : k ≠ 0 := by omega
    rw [Token.outline, wholeNumber, if_pos rfl, if_neg hk, Number.ofInt, dif_pos ⟨hlo, hhi⟩]

end StatesLang.Json
