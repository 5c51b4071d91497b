import StatesLang.Proofs.Grammar.Path
import StatesLang.Proofs.Grammar.Word

/-!
# Texts as rows of symbols

* `Call.Symbol`: punctuation, quoted texts and words, without their places.
* `Call.Spells`: a text as symbols, with blanks around them wherever there are any.
* `Call.Carry`: tokens that stand for symbols.
* **`Call.spells_iff_carry`**: the tokens of a text stand for the symbols that it spells.
* `Call.exists_carry_append`: the same with more text behind it.
* `Call.spells_append_iff`: behind what spells some symbols a text spells the others.
-/

namespace StatesLang.Call

/-- What a call is spelled with. -/
inductive Symbol
  | comma
  | opening
  | closing
  | text (s : List Char)
  | word (w : List Char)

/-- The symbol that a token stands for, unless it cannot be read. -/
def Token.symbol? (t : Token) : Option Symbol :=
  match t.kind with
  | .comma => some .comma
  | .opening => some .opening
  | .closing => some .closing
  | .quoted s => some (.text s)
  | .bare _ w => some (.word w)
  | .defective _ _ => none

/-- A text that spells symbols. Blanks may stand before and behind each of them; a word goes on up
to a delimiter. -/
inductive Spells : List Char → List Symbol → Prop
  | nil : Spells [] []
  | blank {c cs ks} (hb : Text.isBlank c = true) (h : Spells cs ks) : Spells (c :: cs) ks
  | comma {cs ks} (h : Spells cs ks) : Spells (',' :: cs) (.comma :: ks)
  | opening {cs ks} (h : Spells cs ks) : Spells ('(' :: cs) (.opening :: ks)
  | closing {cs ks} (h : Spells cs ks) : Spells (')' :: cs) (.closing :: ks)
  | text {raw s cs ks} (hs : QuotedBody raw s) (h : Spells cs ks) :
      Spells ('\'' :: (raw ++ '\'' :: cs)) (.text s :: ks)
  | word {raw w cs ks} (hw : Word raw w) (hne : raw ≠ []) (hend : AtDelimiter cs)
      (h : Spells cs ks) : Spells (raw ++ cs) (.word w :: ks)

theorem spells_nil {ks : List Symbol} (h : Spells [] ks) : ks = [] := by
  generalize hcs : ([] : List Char) = cs at h
  cases h with
  | nil => rfl
  | word _ hne => exact absurd (List.append_eq_nil_iff.1 hcs.symm).1 hne
  | _ => cases hcs

/-- Tokens that stand for symbols. -/
def Carry (ts : List Token) (ks : List Symbol) : Prop :=
  ts.map Token.symbol? = ks.map some

theorem carry_nil {ts : List Token} : Carry ts [] ↔ ts = [] := by
  simp [Carry]

theorem carry_cons {ts : List Token} {k : Symbol} {ks : List Symbol} :
    Carry ts (k :: ks) ↔ ∃ t rest, ts = t :: rest ∧ t.symbol? = some k ∧ Carry rest ks := by
  unfold Carry
  rw [List.map_cons, List.map_eq_cons_iff]

theorem Carry.cons {t : Token} {ts : List Token} {k : Symbol} {ks : List Symbol}
    (h : Carry ts ks) (ht : t.symbol? = some k) : Carry (t :: ts) (k :: ks) :=
  carry_cons.2 ⟨t, ts, rfl, ht, h⟩

theorem Carry.of_cons {t : Token} {ts : List Token} {k : Symbol} {ks : List Symbol}
    (ht : t.symbol? = some k) (h : Carry (t :: ts) ks) : ∃ ks', ks = k :: ks' ∧ Carry ts ks' := by
  cases ks with
  | nil => cases h
  | cons k' ks =>
    obtain ⟨t', ts', he, ht', hts⟩ := carry_cons.1 h
    obtain ⟨rfl, rfl⟩ := List.cons.inj he
    rw [ht] at ht'
    cases ht'
    exact ⟨ks, rfl, hts⟩

theorem not_carry_of_defective {t : Token} {ts : List Token} {ks : List Symbol}
    (ht : t.symbol? = none) : ¬ Carry (t :: ts) ks := by
  intro h
  unfold Carry at h
  rw [List.map_cons, ht] at h
  cases ks with
  | nil => cases h
  | cons k ks => cases h

theorem carry_append {ts : List Token} {ks ks' : List Symbol} :
    Carry ts (ks ++ ks') ↔ ∃ us us', ts = us ++ us' ∧ Carry us ks ∧ Carry us' ks' := by
  unfold Carry
  rw [List.map_append, List.map_eq_append_iff]

theorem Carry.unique {ts : List Token} {ks ks' : List Symbol} (h : Carry ts ks)
    (h' : Carry ts ks') : ks = ks' := by
  unfold Carry at h h'
  rw [h] at h'
  exact (List.map_inj_right fun _ _ => Option.some.inj).1 h'

/-! ## Tokens of spelled texts -/

theorem Word.head {c : Char} {raw w : List Char} (h : Word (c :: raw) w) :
    isDelimiter c = false ∧ c ≠ '\'' := by
  cases h with
  | escaped => decide
  | brackets => decide
  | plain hd hc => exact ⟨hd, fun h => hc (by simp [h])⟩

theorem isDelimiter_eq_false {c : Char} :
    isDelimiter c = false ↔ Text.isBlank c = false ∧ c ≠ ',' ∧ c ≠ '(' ∧ c ≠ ')' := by
  simp only [isDelimiter, Bool.or_eq_false_iff, beq_eq_false_iff_ne]
  constructor
  · rintro ⟨⟨⟨h1, h2⟩, h3⟩, h4⟩
    exact ⟨h4, h1, h2, h3⟩
  · rintro ⟨h4, h1, h2, h3⟩
    exact ⟨⟨⟨h1, h2⟩, h3⟩, h4⟩

theorem tokens_text {raw s : List Char} (hs : QuotedBody raw s) (cs : List Char)
    (position : Nat) :
    ∃ position', tokens position ('\'' :: (raw ++ '\'' :: cs)) =
      ⟨.quoted s, position⟩ :: tokens position' cs := by
  obtain ⟨position', h⟩ := (@quotedText_iff (position + 1) _ _ _).2 ⟨raw, rfl, hs⟩
  refine ⟨position', ?_⟩
  rw [tokens, dif_neg (by decide), dif_neg (by decide), dif_neg (by decide), dif_neg (by decide),
    if_pos rfl]
  split
  · next he =>
    rw [h] at he
    cases he
    rfl
  · next he =>
    rw [h] at he
    cases he

theorem tokens_word {raw w : List Char} (hw : Word raw w) (hne : raw ≠ []) {cs : List Char}
    (hend : AtDelimiter cs) (position : Nat) :
    ∃ c position', tokens position (raw ++ cs) = ⟨.bare c w, position⟩ :: tokens position' cs := by
  obtain ⟨position', h⟩ := closedWord_iff.2 ⟨raw, rfl, hw, hend⟩
  obtain ⟨c, raw, rfl⟩ := List.exists_cons_of_ne_nil hne
  obtain ⟨hd, hq⟩ := hw.head
  obtain ⟨hb, hc, ho, he⟩ := isDelimiter_eq_false.1 hd
  refine ⟨c, position', ?_⟩
  rw [List.cons_append] at h ⊢
  rw [tokens, dif_neg (by simp [hb]), dif_neg hc, dif_neg ho, dif_neg he, if_neg hq]
  split
  · next hl =>
    rw [h] at hl
    cases hl
    rfl
  · next hl =>
    rw [h] at hl
    cases hl

theorem tokens_blank {c : Char} (hb : Text.isBlank c = true) (cs : List Char) (position : Nat) :
    tokens position (c :: cs) = tokens (position + 1) cs := by
  rw [tokens, dif_pos hb]

/-- The tokens of a text that spells symbols stand for these, also with more text behind it. A word
at the end must not go on into that text. -/
theorem exists_carry_append {cs : List Char} {ks : List Symbol} (h : Spells cs ks)
    (more : List Char) (hmore : AtDelimiter more ∨ ∀ w, ks.getLast? ≠ some (.word w))
    (position : Nat) :
    ∃ ts position', tokens position (cs ++ more) = ts ++ tokens position' more ∧ Carry ts ks := by
  have hlast : ∀ {k : Symbol} {ks : List Symbol},
      (∀ w, (k :: ks).getLast? ≠ some (.word w)) → ∀ w, ks.getLast? ≠ some (.word w) := by
    intro k ks h w hw
    cases ks with
    | nil => cases hw
    | cons k' ks => exact h w (by rw [List.getLast?_cons_cons]; exact hw)
  induction h generalizing position with
  | nil => exact ⟨[], position, rfl, rfl⟩
  | blank hb _ ih =>
    obtain ⟨ts, position', ht, hc⟩ := ih hmore (position + 1)
    exact ⟨ts, position', by rw [List.cons_append, tokens_blank hb, ht], hc⟩
  | comma _ ih =>
    obtain ⟨ts, position', ht, hc⟩ := ih (hmore.imp_right hlast) (position + 1)
    refine ⟨⟨.comma, position⟩ :: ts, position', ?_, hc.cons rfl⟩
    rw [List.cons_append, tokens, dif_neg (by decide), dif_pos rfl, ht]
    rfl
  | opening _ ih =>
    obtain ⟨ts, position', ht, hc⟩ := ih (hmore.imp_right hlast) (position + 1)
    refine ⟨⟨.opening, position⟩ :: ts, position', ?_, hc.cons rfl⟩
    rw [List.cons_append, tokens, dif_neg (by decide), dif_neg (by decide), dif_pos rfl, ht]
    rfl
  | closing _ ih =>
    obtain ⟨ts, position', ht, hc⟩ := ih (hmore.imp_right hlast) (position + 1)
    refine ⟨⟨.closing, position⟩ :: ts, position', ?_, hc.cons rfl⟩
    rw [List.cons_append, tokens, dif_neg (by decide), dif_neg (by decide), dif_neg (by decide),
      dif_pos rfl, ht]
    rfl
  | @text raw s cs ks hs _ ih =>
    obtain ⟨after, htext⟩ := tokens_text hs (cs ++ more) position
    obtain ⟨ts, position', ht, hc⟩ := ih (hmore.imp_right hlast) after
    refine ⟨⟨.quoted s, position⟩ :: ts, position', ?_, hc.cons rfl⟩
    rw [List.cons_append, List.append_assoc, List.cons_append, htext, ht]
    rfl
  | @word raw w cs ks hw hne hend hs ih =>
    have hend' : AtDelimiter (cs ++ more) := by
      cases cs with
      | cons c cs => exact hend
      | nil =>
        rcases hmore with hmore | hmore
        · exact hmore
        · rw [spells_nil hs] at hmore
          exact absurd rfl (hmore w)
    obtain ⟨c, after, hword⟩ := tokens_word hw hne hend' position
    obtain ⟨ts, position', ht, hc⟩ := ih (hmore.imp_right hlast) after
    refine ⟨⟨.bare c w, position⟩ :: ts, position', ?_, hc.cons rfl⟩
    rw [List.append_assoc, hword, ht]
    rfl

theorem spells_of_carry {position : Nat} {cs : List Char} {ks : List Symbol}
    (h : Carry (tokens position cs) ks) : Spells cs ks := by
  fun_induction tokens position cs generalizing ks with
  | case1 =>
    cases ks with
    | nil => exact .nil
    | cons k ks => cases h
  | case2 position c rest hb ih => exact .blank hb (ih h)
  | case3 position rest _ ih =>
    obtain ⟨ks, rfl, htail⟩ := Carry.of_cons rfl h
    exact .comma (ih htail)
  | case4 position rest _ _ ih =>
    obtain ⟨ks, rfl, htail⟩ := Carry.of_cons rfl h
    exact .opening (ih htail)
  | case5 position rest _ _ _ ih =>
    obtain ⟨ks, rfl, htail⟩ := Carry.of_cons rfl h
    exact .closing (ih htail)
  | case6 position rest l hl hlen _ _ _ _ ih =>
    obtain ⟨ks, rfl, htail⟩ := Carry.of_cons rfl h
    obtain ⟨raw, rfl, hs⟩ := quotedText_iff.1 ⟨l.position, hl⟩
    exact .text hs (ih htail)
  | case7 => exact absurd h (not_carry_of_defective rfl)
  | case8 position c rest hb hc ho he hq l hl hlen ih =>
    obtain ⟨ks, rfl, htail⟩ := Carry.of_cons rfl h
    obtain ⟨raw, hraw, hw, hend⟩ := closedWord_iff.1 ⟨l.position, hl⟩
    have hne : raw ≠ [] := by
      rintro rfl
      rw [List.nil_append] at hraw
      have hd := hend c (by rw [← hraw]; rfl)
      rw [isDelimiter_eq_false.2 ⟨Bool.eq_false_iff.2 hb, hc, ho, he⟩] at hd
      cases hd
    rw [hraw]
    exact .word hw hne hend (ih htail)
  | case9 => exact absurd h (not_carry_of_defective rfl)

/-- **The tokens of a text stand for the symbols that it spells.** -/
theorem spells_iff_carry {cs : List Char} {ks : List Symbol} (position : Nat) :
    Spells cs ks ↔ Carry (tokens position cs) ks := by
  constructor
  · intro h
    obtain ⟨ts, position', ht, hc⟩ := exists_carry_append h [] (.inl atDelimiter_nil) position
    rw [List.append_nil, tokens, List.append_nil] at ht
    rwa [ht]
  · exact spells_of_carry

/-- **What a text spells does not depend on what comes before.** -/
theorem spells_append_iff {cs : List Char} {ks : List Symbol} (h : Spells cs ks)
    {more : List Char} (hmore : AtDelimiter more ∨ ∀ w, ks.getLast? ≠ some (.word w))
    {all : List Symbol} :
    Spells (cs ++ more) all ↔ ∃ ks', all = ks ++ ks' ∧ Spells more ks' := by
  obtain ⟨ts, position, ht, hc⟩ := exists_carry_append h more hmore 0
  constructor
  · intro hall
    have hcarry := (spells_iff_carry 0).1 hall
    unfold Carry at hcarry
    rw [ht, List.map_append, eq_comm, List.map_eq_append_iff] at hcarry
    obtain ⟨ks₁, ks', rfl, hks, hks'⟩ := hcarry
    obtain rfl : ks₁ = ks := Carry.unique hks.symm hc
    exact ⟨ks', rfl, (spells_iff_carry position).2 hks'.symm⟩
  · rintro ⟨ks', rfl, hs⟩
    refine (spells_iff_carry 0).2 ?_
    rw [ht]
    exact carry_append.2 ⟨_, _, rfl, hc, (spells_iff_carry position).1 hs⟩

theorem exists_word_of_spells {cs w : List Char} {ks : List Symbol}
    (h : Spells cs (.word w :: ks)) :
    ∃ before raw rest, cs = before ++ (raw ++ rest) ∧ Text.Blanks before ∧ Word raw w ∧
      Spells rest ks := by
  generalize hks : Symbol.word w :: ks = all at h
  induction h with
  | blank hb _ ih =>
    obtain ⟨before, raw, rest, rfl, hbefore, hw, hs⟩ := ih hks
    refine ⟨_ :: before, raw, rest, rfl, ?_, hw, hs⟩
    rintro d (_ | ⟨_, hd⟩)
    · exact hb
    · exact hbefore d hd
  | word hw _ _ hs =>
    cases hks
    exact ⟨[], _, _, rfl, nofun, hw, hs⟩
  | _ => cases hks

theorem blanks_of_tokens_nil {position : Nat} {cs : List Char} (h : tokens position cs = []) :
    Text.Blanks cs := by
  have hs : Spells cs [] := (spells_iff_carry position).2 (carry_nil.2 h)
  generalize hks : ([] : List Symbol) = ks at hs
  induction hs with
  | nil => exact nofun
  | blank hb hs ih =>
    subst hks
    have htail := ih ((carry_nil.1 ((spells_iff_carry position).1 hs))) rfl
    rintro d (_ | ⟨_, hd⟩)
    · exact hb
    · exact htail d hd
  | _ => cases hks

end StatesLang.Call
