import StatesLang.Proofs.Grammar.Call

/-!
# The limit on the nesting of calls

The parser counts the calls that are open, and it looks at the limit only where one more is opened.
So two runs over the same text go together until the smaller limit is met.

* `Call.readOrTooDeep_parse`: a text that is read under some limit is read to the same call under
  any other, or refused for its nesting.
* **`Call.parse_limit_exact`**: a limit lets just the calls pass that are nested within it, and
  refuses the others for their nesting.
-/

namespace StatesLang.Call

variable {limit limit' : Nat} {outer : List Open} {o : Open} {e : Expected}

theorem parseParams_tooDeep (he : e ≠ .separator) {t u : Token} {rest : List Token} {first : Char}
    {w : List Char} (ht : t.kind = .bare first w) (hu : u.kind = .opening)
    (hl : limit ≤ outer.length + 1) :
    parseParams limit outer o e (t :: u :: rest) = .error (.tooDeep limit u.position) := by
  obtain ⟨kind, position⟩ := t
  obtain ⟨kind', position'⟩ := u
  cases ht
  cases hu
  cases e with
  | separator => exact absurd rfl he
  | _ => exact if_pos hl

/-- The answer of a run is this call, or the nesting is too deep for its limit. -/
def ReadOrTooDeep (limit : Nat) (c : Call) (answer : Except Defect Call) : Prop :=
  answer = .ok c ∨ ∃ position, answer = .error (.tooDeep limit position)

/-- Another limit makes a difference only where a call is opened. -/
theorem readOrTooDeep_parseParams (limit : Nat) {ts : List Token} {c : Call}
    (h : parseParams limit' outer o e ts = .ok c) :
    ReadOrTooDeep limit c (parseParams limit outer o e ts) := by
  fun_induction parseParams limit' outer o e ts with
  | case1 => cases h
  | case2 o t ht =>
    rw [parseParams_end (by simp) ht]
    exact .inl h
  | case3 => cases h
  | case4 o t rest ht around outer ih =>
    rw [parseParams_closing (by simp) ht]
    exact ih h
  | case5 o t ht =>
    rw [parseParams_end (by simp) ht]
    exact .inl h
  | case6 => cases h
  | case7 o t rest ht around outer ih =>
    rw [parseParams_closing (by simp) ht]
    exact ih h
  | case8 outer o t rest ht ih =>
    rw [parseParams_comma ht]
    exact ih h
  | case9 => cases h
  | case10 => cases h
  | case11 => cases h
  | case12 => cases h
  | case13 => cases h
  | case14 outer o e t rest s ht he ih =>
    rw [parseParams_text he ht]
    exact ih h
  | case15 => cases h
  | case16 outer o e t first word ht position rest _ he ih =>
    by_cases hlimit : limit ≤ outer.length + 1
    · exact .inr ⟨position, parseParams_tooDeep he ht rfl hlimit⟩
    · rw [parseParams_call he ht rfl (Nat.lt_of_not_le hlimit)]
      exact ih h
  | case17 outer o e t first word ht rest hrest p hp he ih =>
    have hnext : NoOpening rest := by
      intro u hu hkind
      obtain ⟨rest', rfl⟩ := List.head?_eq_some_iff.1 hu
      exact hrest u.position rest' (by rw [← hkind])
    rw [parseParams_literal he ht (literal?_iff.1 hp) hnext]
    exact ih h
  | case18 => cases h

theorem readOrTooDeep_parse (limit : Nat) {text : String} {c : Call}
    (h : parse limit' text = .ok c) : ReadOrTooDeep limit c (parse limit text) := by
  unfold parse parseTokens at h ⊢
  split at h
  · cases h
  · split at h
    · cases h
    · split_ifs at h
      split_ifs
      · exact .inr ⟨_, rfl⟩
      · exact readOrTooDeep_parseParams limit h
    · cases h
  · cases h
  · cases h
  · cases h

/-- **The limit is exact.** It changes no call that is read, lets those pass that are nested within
it, and refuses the others for their nesting. -/
theorem parse_limit_exact (limit : Nat) (text : String) (c : Call) :
    (parse limit text = .ok c ↔ (∃ limit', parse limit' text = .ok c) ∧ c.nesting ≤ limit) ∧
      ((∃ limit', parse limit' text = .ok c) → limit < c.nesting →
        ∃ position, parse limit text = .error (.tooDeep limit position)) := by
  have hwithin : parse limit text = .ok c → c.nesting ≤ limit := fun h => (parse_eq_ok.1 h).2
  refine ⟨⟨fun h => ⟨⟨limit, h⟩, hwithin h⟩, ?_⟩, ?_⟩
  · rintro ⟨⟨limit', h⟩, hn⟩
    exact parse_eq_ok.2 ⟨(parse_eq_ok.1 h).1, hn⟩
  · rintro ⟨limit', h⟩ hn
    rcases readOrTooDeep_parse limit h with h | hdeep
    · exact absurd (hwithin h) (Nat.not_le.2 hn)
    · exact hdeep

/-- Three calls inside each other, the innermost behind a comma. -/
theorem threeDeep_limit :
    parse 3 "F(1, G($.a, H()))" =
        .ok ⟨"F", [.int 1, .call ⟨"G", [.path "$.a", .call ⟨"H", []⟩]⟩]⟩ ∧
      ∃ position, parse 2 "F(1, G($.a, H()))" = .error (.tooDeep 2 position) := by
  have hread : parse 5 "F(1, G($.a, H()))" =
      .ok ⟨"F", [.int 1, .call ⟨"G", [.path "$.a", .call ⟨"H", []⟩]⟩]⟩ := by decide +kernel
  exact ⟨(parse_limit_exact 3 _ _).1.2 ⟨⟨5, hread⟩, by decide⟩,
    (parse_limit_exact 2 _ _).2 ⟨5, hread⟩ (by decide)⟩

end StatesLang.Call
