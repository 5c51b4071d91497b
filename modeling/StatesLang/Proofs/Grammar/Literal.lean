import StatesLang.Call.Parser
import StatesLang.Proofs.Grammar.Number

/-!
# The grammar of literals

* `Call.LiteralText`: the literals and paths among the words of a call.
* **`Call.literal?_iff`**: the words that are read as literals are these.
-/

namespace StatesLang.Call

/-- A word that is no name, and the parameter that it says. An integer of 64 bits is no decimal. -/
inductive LiteralText : List Char → Param → Prop
  | null : LiteralText ['n', 'u', 'l', 'l'] .null
  | true : LiteralText ['t', 'r', 'u', 'e'] (.boolean true)
  | false : LiteralText ['f', 'a', 'l', 's', 'e'] (.boolean false)
  | path (rest) : LiteralText ('$' :: rest) (.path (String.ofList ('$' :: rest)))
  | int {w n} (h : Literal.int64? w = some n) : LiteralText w (.int n)
  | decimal {w x} (hn : Literal.int64? w = none) (h : Literal.decimal? w = some x) :
      LiteralText w (.decimal x)

theorem looksNumeric_iff {cs : List Char} :
    looksNumeric cs = true ↔ (∃ c ∈ cs, c.isDigit = true) ∧ ∀ c ∈ cs, Literal.IsDecimalChar c := by
  simp only [looksNumeric, Literal.IsDecimalChar, Bool.and_eq_true, List.any_eq_true,
    List.all_eq_true, Bool.or_eq_true, beq_iff_eq, List.mem_cons, List.not_mem_nil, or_false,
    or_assoc]

theorem ne_of_decimalChars {w : List Char} (h : ∀ c ∈ w, Literal.IsDecimalChar c) :
    w ≠ ['n', 'u', 'l', 'l'] ∧ w ≠ ['t', 'r', 'u', 'e'] ∧ w ≠ ['f', 'a', 'l', 's', 'e'] ∧
      w.head? ≠ some '$' := by
  have hno : ∀ c, c.isDigit = false → c ∉ ['+', '-', '.', 'e', 'E'] → c ∉ w := by
    intro c hd hs hc
    rcases h c hc with hc | hc
    · rw [hd] at hc
      cases hc
    · exact hs hc
  refine ⟨?_, ?_, ?_, fun h => hno '$' (by decide) (by decide) (List.mem_of_mem_head? h)⟩
  · rintro rfl
    exact hno 'n' (by decide) (by decide) (by simp)
  · rintro rfl
    exact hno 't' (by decide) (by decide) (by simp)
  · rintro rfl
    exact hno 'f' (by decide) (by decide) (by simp)

/-- **The words that are read as literals.** -/
theorem literal?_iff {w : List Char} {p : Param} : literal? w = some p ↔ LiteralText w p := by
  unfold literal?
  constructor
  · intro h
    split_ifs at h with hnull htrue hfalse hpath hnumeric
    · cases h
      rw [hnull]
      exact .null
    · cases h
      rw [htrue]
      exact .true
    · cases h
      rw [hfalse]
      exact .false
    · cases h
      cases w with
      | nil => cases hpath
      | cons c rest =>
        rw [List.head?_cons, Option.some.injEq] at hpath
        rw [hpath]
        exact .path rest
    · split at h
      · next n hn =>
        cases h
        exact .int hn
      · next hn =>
        obtain ⟨x, hx, rfl⟩ := Option.map_eq_some_iff.1 h
        exact .decimal hn hx
    · split at h
      · next n hn =>
        cases h
        exact .int hn
      · cases h
  · intro h
    cases h with
    | null => rfl
    | true => rfl
    | false => rfl
    | path rest => simp
    | int h =>
      obtain ⟨h1, h2, h3, h4⟩ := ne_of_decimalChars (Literal.int64?_chars h)
      rw [if_neg h1, if_neg h2, if_neg h3, if_neg h4, h]
    | decimal hn h =>
      obtain ⟨h1, h2, h3, h4⟩ := ne_of_decimalChars (Literal.decimal?_chars h).2
      rw [if_neg h1, if_neg h2, if_neg h3, if_neg h4, hn]
      dsimp only
      rw [if_pos (looksNumeric_iff.2 (Literal.decimal?_chars h)), h]
      rfl

end StatesLang.Call
