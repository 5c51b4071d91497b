import StatesLang.Json.Printer
import StatesLang.Json.Reader

/-!
# Strings read back

* `Json.scanString_quoteChar`: a written character is scanned as it was, whatever escape it took.
* **`Json.scanString_quote`**: so is a whole text.
-/

namespace StatesLang.Json

/-- The escapes with four digits that are written: those of the control characters. -/
theorem hexFour_control : ∀ n : Fin 32,
    hexFour? '0' '0' (if n.1 < 0x10 then '0' else '1') (Nat.digitChar (n.1 % 16)) = some n.1 := by
  decide

theorem scanString_unit {before : List Char} {flaw : Option SyntaxError} {a b c d : Char}
    {rest : List Char} {n : Nat} (h : hexFour? a b c d = some n) (hn : n < 0x20) :
    scanString before flaw ('\\' :: 'u' :: a :: b :: c :: d :: rest) =
      scanString (Char.ofNat n :: before) flaw rest := by
  have ht : isTrailing n = false := by
    simp only [isTrailing, Bool.and_eq_false_iff, decide_eq_false_iff_not]
    omega
  have hl : isLeading n = false := by
    simp only [isLeading, Bool.and_eq_false_iff, decide_eq_false_iff_not]
    omega
  rw [scanString]
  simp only [h, ht, hl, Bool.false_eq_true, if_false]

theorem scanString_escape {before : List Char} {flaw : Option SyntaxError} {c e : Char}
    {rest : List Char} (hc : c ≠ 'u') (h : simpleEscape? c = some e) :
    scanString before flaw ('\\' :: c :: rest) = scanString (e :: before) flaw rest := by
  rw [scanString]
  · simp only [h]
  all_goals simp_all

theorem scanString_plain {before : List Char} {flaw : Option SyntaxError} {c : Char}
    {rest : List Char} (hq : c ≠ '"') (hb : c ≠ '\\') (hc : ¬ c.toNat < 0x20) :
    scanString before flaw (c :: rest) = scanString (c :: before) flaw rest := by
  rw [scanString]
  · rw [if_neg hc]
  all_goals simp_all

theorem scanString_quoteChar (before rest : List Char) (flaw : Option SyntaxError) (c : Char) :
    scanString before flaw (quoteChar c ++ rest) = scanString (c :: before) flaw rest := by
  by_cases h1 : c = '"'
  · subst h1
    exact scanString_escape (by decide) (by decide)
  by_cases h2 : c = '\\'
  · subst h2
    exact scanString_escape (by decide) (by decide)
  by_cases h3 : c = '\x08'
  · subst h3
    exact scanString_escape (by decide) (by decide)
  by_cases h4 : c = '\x0c'
  · subst h4
    exact scanString_escape (by decide) (by decide)
  by_cases h5 : c = '\n'
  · subst h5
    exact scanString_escape (by decide) (by decide)
  by_cases h6 : c = '\r'
  · subst h6
    exact scanString_escape (by decide) (by decide)
  by_cases h7 : c = '\t'
  · subst h7
    exact scanString_escape (by decide) (by decide)
  rw [quoteChar, if_neg h1, if_neg h2, if_neg h3, if_neg h4, if_neg h5, if_neg h6, if_neg h7]
  split
  · next hc =>
    have hunit := @scanString_unit before flaw _ _ _ _ rest _ (hexFour_control ⟨c.toNat, hc⟩) hc
    rwa [Char.ofNat_toNat] at hunit
  · next hc => exact scanString_plain h1 h2 hc

/-- **A written text is scanned as it was**, up to its closing quote. -/
theorem scanString_quote (s : String) (rest : List Char) :
    scanString [] none (s.toList.flatMap quoteChar ++ '"' :: rest) = .value s rest := by
  have h : ∀ cs before, scanString before none (cs.flatMap quoteChar ++ '"' :: rest) =
      .value (String.ofList (before.reverse ++ cs)) rest := by
    intro cs
    induction cs with
    | nil => intro before; simp [scanString]
    | cons c cs ih =>
      intro before
      rw [List.flatMap_cons, List.append_assoc, scanString_quoteChar, ih]
      simp
  rw [h, List.reverse_nil, List.nil_append, String.ofList_toList]

end StatesLang.Json
