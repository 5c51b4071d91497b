import Mathlib.Tactic.SplitIfs
import StatesLang.Call.Token

/-!
# The grammar of words and quoted texts

* `Call.QuotedBody`: a quoted text as it is written, and the text that it says.
* `Call.Enclosed`: what may stand between two brackets of a bare word.
* `Call.Word`: a bare word as it is written, and the word that it says.
* **`Call.quotedText_iff`**, **`Call.closedWord_iff`**: the readers read exactly these, a word up to
  the first delimiter.
-/

namespace StatesLang.Call

/-! ## Quoted texts -/

/-- A quoted text as it is written before the closing quote, and the text that it says. A backslash
goes before a quote and before a backslash, and stays before any other character. -/
inductive QuotedBody : List Char → List Char → Prop
  | nil : QuotedBody [] []
  | unescaped {c raw s} (hc : c = '\'' ∨ c = '\\') (h : QuotedBody raw s) :
      QuotedBody ('\\' :: c :: raw) (c :: s)
  | kept {c raw s} (hc : ¬ (c = '\'' ∨ c = '\\')) (h : QuotedBody raw s) :
      QuotedBody ('\\' :: c :: raw) ('\\' :: c :: s)
  | plain {c raw s} (hc : ¬ (c = '\'' ∨ c = '\\')) (h : QuotedBody raw s) :
      QuotedBody (c :: raw) (c :: s)

theorem quotedText_sound {position : Nat} {cs : List Char} {l : Lexeme}
    (h : quotedText position cs = some l) :
    ∃ raw, cs = raw ++ '\'' :: l.rest ∧ QuotedBody raw l.content := by
  fun_induction quotedText position cs generalizing l with
  | case1 => cases h
  | case2 => cases h
  | case3 position c rest ih =>
    obtain ⟨m, hm, rfl⟩ := Option.map_eq_some_iff.1 h
    obtain ⟨raw, rfl, hbody⟩ := ih hm
    refine ⟨'\\' :: c :: raw, rfl, ?_⟩
    simp only [Lexeme.prepend]
    split_ifs with hc
    · exact .unescaped hc hbody
    · exact .kept hc hbody
  | case4 => cases h; exact ⟨[], rfl, .nil⟩
  | case5 position c rest hone htwo hc ih =>
    obtain ⟨m, hm, rfl⟩ := Option.map_eq_some_iff.1 h
    obtain ⟨raw, rfl, hbody⟩ := ih hm
    refine ⟨c :: raw, rfl, .plain ?_ hbody⟩
    rintro (h | rfl)
    · exact hc h
    · obtain ⟨d, ds, hraw⟩ := List.exists_cons_of_ne_nil (show raw ++ '\'' :: m.rest ≠ [] by simp)
      exact htwo d ds rfl hraw

theorem quotedText_complete {raw s : List Char} (h : QuotedBody raw s) (rest : List Char)
    (position : Nat) :
    ∃ position', quotedText position (raw ++ '\'' :: rest) = some ⟨s, rest, position'⟩ := by
  induction h generalizing position with
  | nil =>
    refine ⟨position + 1, ?_⟩
    rw [List.nil_append, quotedText.eq_4 _ _ _ (by simp) (by simp), if_pos rfl]
  | unescaped hc _ ih =>
    obtain ⟨position', h⟩ := ih (position + 2)
    refine ⟨position', ?_⟩
    rw [List.cons_append, List.cons_append, quotedText, h, if_pos hc]
    rfl
  | kept hc _ ih =>
    obtain ⟨position', h⟩ := ih (position + 2)
    refine ⟨position', ?_⟩
    rw [List.cons_append, List.cons_append, quotedText, h, if_neg hc]
    rfl
  | plain hc _ ih =>
    obtain ⟨position', h⟩ := ih (position + 1)
    rw [not_or] at hc
    refine ⟨position', ?_⟩
    rw [List.cons_append, quotedText.eq_4 _ _ _ (by simp [hc]) (by simp [hc]), if_neg hc.1, h]
    rfl

/-- **A quoted text is read as it is written.** -/
theorem quotedText_iff {position : Nat} {cs s rest : List Char} :
    (∃ position', quotedText position cs = some ⟨s, rest, position'⟩) ↔
      ∃ raw, cs = raw ++ '\'' :: rest ∧ QuotedBody raw s := by
  constructor
  · rintro ⟨position', h⟩
    exact quotedText_sound h
  · rintro ⟨raw, rfl, h⟩
    exact quotedText_complete h rest position

/-! ## Words -/

/-- What stands before the closing quote of a member name. -/
inductive InQuotes (quote : Char) : List Char → Prop
  | nil : InQuotes quote []
  | escaped {raw} (c : Char) (h : InQuotes quote raw) : InQuotes quote ('\\' :: c :: raw)
  | plain {c raw} (hq : c ≠ quote) (hb : c ≠ '\\') (h : InQuotes quote raw) :
      InQuotes quote (c :: raw)

/-- What stands between two brackets: escapes, quoted names, brackets that close again, and any
other characters. -/
inductive Enclosed : List Char → Prop
  | nil : Enclosed []
  | escaped {raw} (c : Char) (h : Enclosed raw) : Enclosed ('\\' :: c :: raw)
  | quoted {quote inner raw} (hq : quote = '\'' ∨ quote = '"') (hi : InQuotes quote inner)
      (h : Enclosed raw) : Enclosed (quote :: (inner ++ quote :: raw))
  | nested {inner raw} (hi : Enclosed inner) (h : Enclosed raw) :
      Enclosed ('[' :: (inner ++ ']' :: raw))
  | plain {c raw} (hc : c ∉ ['\\', '\'', '"', '[', ']']) (h : Enclosed raw) : Enclosed (c :: raw)

/-- A bare word as it is written, and the word that it says. Outside brackets the backslash of an
escape goes; brackets and all between them stay. -/
inductive Word : List Char → List Char → Prop
  | nil : Word [] []
  | escaped {raw word} (c : Char) (h : Word raw word) : Word ('\\' :: c :: raw) (c :: word)
  | brackets {inner raw word} (hi : Enclosed inner) (h : Word raw word) :
      Word ('[' :: (inner ++ ']' :: raw)) ('[' :: (inner ++ ']' :: word))
  | plain {c raw word} (hd : isDelimiter c = false) (hc : c ∉ ['\\', '\'', '['])
      (h : Word raw word) : Word (c :: raw) (c :: word)

theorem Enclosed.of_plain {cs : List Char} (hc : ∀ c ∈ cs, c ∉ ['\\', '\'', '"', '[', ']']) :
    Enclosed cs := by
  induction cs with
  | nil => exact .nil
  | cons c cs ih =>
    exact .plain (hc c List.mem_cons_self) (ih fun d hd => hc d (List.mem_cons_of_mem _ hd))

theorem Word.append {raw raw' w w' : List Char} (h : Word raw w) (h' : Word raw' w') :
    Word (raw ++ raw') (w ++ w') := by
  induction h with
  | nil => exact h'
  | escaped c _ ih => exact .escaped c ih
  | brackets hi _ ih => simpa using Word.brackets hi ih
  | plain hd hc _ ih => exact .plain hd hc ih

theorem Word.count {raw w : List Char} (h : Word raw w) {x : Char} (hx : x ≠ '\\') :
    raw.count x = w.count x := by
  induction h with
  | nil => rfl
  | escaped c _ ih => rw [List.count_cons_of_ne hx.symm, List.count_cons, List.count_cons, ih]
  | brackets _ _ ih => simp only [List.count_cons, List.count_append, ih]
  | plain _ _ _ ih => rw [List.count_cons, List.count_cons, ih]

theorem Word.length_le {raw w : List Char} (h : Word raw w) : w.length ≤ raw.length := by
  induction h with
  | nil => exact Nat.le_refl _
  | escaped c _ ih =>
    simp only [List.length_cons]
    omega
  | brackets _ _ ih =>
    simp only [List.length_cons, List.length_append]
    omega
  | plain _ _ _ ih =>
    simp only [List.length_cons]
    omega

/-- A word without escapes outside brackets. -/
inductive Unescaped : List Char → Prop
  | nil : Unescaped []
  | brackets {inner w} (hi : Enclosed inner) (h : Unescaped w) :
      Unescaped ('[' :: (inner ++ ']' :: w))
  | plain {c w} (hd : isDelimiter c = false) (hc : c ∉ ['\\', '\'', '[']) (h : Unescaped w) :
      Unescaped (c :: w)

/-- No character needs an escape or opens a bracket. -/
def PlainChars (cs : List Char) : Prop :=
  ∀ c ∈ cs, isDelimiter c = false ∧ c ∉ ['\\', '\'', '[']

-- over the characters of the list: another instance would go through all characters
instance (cs : List Char) : Decidable (PlainChars cs) :=
  List.decidableBAll _ cs

theorem Unescaped.of_plain {cs : List Char} (hc : PlainChars cs) : Unescaped cs := by
  induction cs with
  | nil => exact .nil
  | cons c cs ih =>
    obtain ⟨hd, hno⟩ := hc c List.mem_cons_self
    exact .plain hd hno (ih fun d hmem => hc d (List.mem_cons_of_mem _ hmem))

theorem Unescaped.word {w : List Char} (h : Unescaped w) : Word w w := by
  induction h with
  | nil => exact .nil
  | brackets hi _ ih => exact .brackets hi ih
  | plain hd hc _ ih => exact .plain hd hc ih

theorem Word.unescaped {raw w : List Char} (h : Word raw w) (hl : raw.length = w.length) :
    Unescaped w := by
  induction h with
  | nil => exact .nil
  | escaped c h _ =>
    have hle := h.length_le
    simp only [List.length_cons] at hl
    omega
  | brackets hi _ ih =>
    simp only [List.length_cons, List.length_append] at hl
    exact .brackets hi (ih (by omega))
  | plain hd hc _ ih => exact .plain hd hc (ih (by simpa using hl))

/-- A text that is no shorter than what it says, and has as many of the character behind it, is what
it says. -/
theorem eq_of_append_of_count {before w raw rest more : List Char} (he : raw ++ rest = w ++ more)
    (hle : (before ++ w).length ≤ raw.length)
    (hcount : ∀ d ∈ more.head?, raw.count d = w.count d) : raw = w ∧ before = [] := by
  rw [List.length_append] at hle
  rcases List.append_eq_append_iff.1 he with ⟨t, ht, -⟩ | ⟨t, ht, hrest⟩
  · rw [ht, List.length_append] at hle
    rw [ht, List.length_eq_zero_iff.1 (show t.length = 0 by omega), List.append_nil]
    exact ⟨rfl, List.length_eq_zero_iff.1 (by omega)⟩
  · cases t with
    | nil =>
      rw [ht, List.append_nil] at hle ⊢
      exact ⟨rfl, List.length_eq_zero_iff.1 (by omega)⟩
    | cons d t =>
      have hd := hcount d (by rw [hrest]; rfl)
      rw [ht, List.count_append, List.count_cons_self] at hd
      omega

/-- A word that reads as itself up to some other character, perhaps without its first characters,
has no escape outside brackets. -/
theorem Word.eq_of_append {before w raw rest more : List Char} {d : Char}
    (h : Word raw (before ++ w)) (he : raw ++ rest = w ++ d :: more) (hd : d ≠ '\\')
    (hbefore : d ∉ before) : raw = w ∧ before = [] := by
  refine eq_of_append_of_count he h.length_le fun d' hd' => ?_
  obtain rfl : d = d' := Option.mem_some_iff.1 hd'
  rw [h.count hd, List.count_append, List.count_eq_zero.2 hbefore, Nat.zero_add]

/-- The text ends here, or a delimiter follows. -/
def AtDelimiter (cs : List Char) : Prop :=
  ∀ c ∈ cs.head?, isDelimiter c = true

theorem atDelimiter_nil : AtDelimiter [] :=
  nofun

theorem atDelimiter_cons {c : Char} {cs : List Char} :
    AtDelimiter (c :: cs) ↔ isDelimiter c = true := by
  simp [AtDelimiter]

/-- What is left of a word behind so many open brackets: for each of them what it encloses up to its
closing bracket, and then the word outside. -/
def Leaves : Nat → List Char → List Char → Prop
  | 0, raw, word => Word raw word
  | n + 1, raw, word => ∃ inner raw' word', Enclosed inner ∧ Leaves n raw' word' ∧
      raw = inner ++ ']' :: raw' ∧ word = inner ++ ']' :: word'

/-- What is left of a word at a place, where a quote may be open too. -/
def LeavesAt (p : Place) (raw word : List Char) : Prop :=
  match p.quote with
  | none => Leaves p.brackets raw word
  | some quote => ∃ inner raw' word', InQuotes quote inner ∧ Leaves p.brackets raw' word' ∧
      raw = inner ++ quote :: raw' ∧ word = inner ++ quote :: word'

/-- A quote is open only inside brackets. -/
def Place.Quiet (p : Place) : Prop :=
  p.brackets = 0 → p.quote = none

theorem Place.Quiet.after {p : Place} (h : p.Quiet) (c : Char) : (p.after c).Quiet := by
  obtain ⟨n, quote⟩ := p
  cases quote with
  | some q =>
    have hn : n ≠ 0 := fun hn => nomatch h hn
    unfold Place.after Place.Quiet
    dsimp only
    split_ifs
    · exact fun _ => rfl
    · exact fun hn' => absurd hn' hn
  | none =>
    unfold Place.after Place.Quiet
    dsimp only
    split_ifs with h1 h2 h3
    · exact fun _ => rfl
    · exact fun _ => rfl
    · exact fun hn => absurd hn (Nat.pos_iff_ne_zero.1 h3.2)
    · exact fun _ => rfl

theorem LeavesAt.escaped {p : Place} (hp : p.Quiet) {raw word : List Char}
    (h : LeavesAt p raw word) (c : Char) :
    LeavesAt p ('\\' :: c :: raw) ((if p.brackets = 0 then [c] else ['\\', c]) ++ word) := by
  obtain ⟨n, quote⟩ := p
  cases quote with
  | some q =>
    have hn : n ≠ 0 := fun hn => nomatch hp hn
    obtain ⟨inner, raw', word', hi, hl, rfl, rfl⟩ := h
    exact ⟨'\\' :: c :: inner, raw', word', .escaped c hi, hl, rfl, by simp [hn]⟩
  | none =>
    cases n with
    | zero => exact Word.escaped c h
    | succ n =>
      obtain ⟨inner, raw', word', hi, hl, rfl, rfl⟩ := h
      exact ⟨'\\' :: c :: inner, raw', word', .escaped c hi, hl, rfl, rfl⟩

theorem LeavesAt.cons {p : Place} {c : Char} (hb : c ≠ '\\')
    (hd : ¬ (p.brackets = 0 ∧ isDelimiter c = true)) (hq : ¬ (p.brackets = 0 ∧ c = '\''))
    {raw word : List Char} (h : LeavesAt (p.after c) raw word) :
    LeavesAt p (c :: raw) (c :: word) := by
  obtain ⟨n, quote⟩ := p
  cases quote with
  | some q =>
    simp only [Place.after] at h
    split_ifs at h with hc
    · exact ⟨[], raw, word, .nil, h, by rw [hc]; rfl, by rw [hc]; rfl⟩
    · obtain ⟨inner, raw', word', hi, hl, rfl, rfl⟩ := h
      exact ⟨c :: inner, raw', word', .plain hc hb hi, hl, rfl, rfl⟩
  | none =>
    simp only [Place.after] at h
    split_ifs at h with h1 h2 h3
    · subst h1
      obtain ⟨inner, raw', word', hi, hl, rfl, rfl⟩ := h
      cases n with
      | zero => exact Word.brackets hi hl
      | succ n =>
        obtain ⟨outer, raw'', word'', ho, hl, rfl, rfl⟩ := hl
        exact ⟨'[' :: (inner ++ ']' :: outer), raw'', word'', .nested hi ho, hl, by simp, by simp⟩
    · subst h2
      cases n with
      | zero => exact Word.plain (by decide) (by decide) h
      | succ n => exact ⟨[], raw, word, .nil, h, rfl, rfl⟩
    · obtain ⟨inner, raw', word', hi, hl, rfl, rfl⟩ := h
      cases n with
      | zero => exact absurd h3.2 (by simp)
      | succ n =>
        obtain ⟨outer, raw'', word'', ho, hl, rfl, rfl⟩ := hl
        exact ⟨c :: (inner ++ c :: outer), raw'', word'', .quoted h3.1 hi ho, hl, by simp, by simp⟩
    · cases n with
      | zero =>
        simp only [true_and] at hd hq
        exact Word.plain (Bool.eq_false_iff.2 hd) (by simp [hb, hq, h1]) h
      | succ n =>
        obtain ⟨inner, raw', word', hi, hl, rfl, rfl⟩ := h
        simp only [Nat.zero_lt_succ, and_true, not_or] at h3
        exact ⟨c :: inner, raw', word', .plain (by simp [hb, h1, h2, h3]) hi, hl, rfl, rfl⟩

theorem bareWord_sound {position : Nat} {place : Place} {cs : List Char} {r : Lexeme × Place}
    (hp : place.Quiet) (h : bareWord position place cs = .ok r) (hr : r.2.brackets = 0) :
    ∃ raw, cs = raw ++ r.1.rest ∧ LeavesAt place raw r.1.content ∧ AtDelimiter r.1.rest := by
  have houtside : ∀ p : Place, p.Quiet → p.brackets = 0 → LeavesAt p [] [] := by
    rintro ⟨n, quote⟩ hp rfl
    cases hp rfl
    exact .nil
  fun_induction bareWord position place cs generalizing r with
  | case1 position place => cases h; exact ⟨[], rfl, houtside _ hp hr, atDelimiter_nil⟩
  | case2 => cases h
  | case3 position place c rest ih =>
    cases hq : bareWord (position + 2) place rest with
    | error e => rw [hq] at h; cases h
    | ok q =>
      rw [hq] at h
      cases h
      obtain ⟨raw, rfl, hl, hend⟩ := ih hp hq hr
      exact ⟨'\\' :: c :: raw, rfl, hl.escaped hp c, hend⟩
  | case4 position place c rest _ _ hc =>
    cases h
    refine ⟨[], rfl, houtside _ hp hr, fun d hd => ?_⟩
    rw [List.head?_cons, Option.mem_some_iff] at hd
    rw [← hd]
    exact hc.2
  | case5 => cases h
  | case6 position place c rest hone htwo hd hc ih =>
    cases hq : bareWord (position + 1) (place.after c) rest with
    | error e => rw [hq] at h; cases h
    | ok q =>
      rw [hq] at h
      cases h
      obtain ⟨raw, rfl, hl, hend⟩ := ih (hp.after c) hq hr
      have hb : c ≠ '\\' := by
        rintro rfl
        cases hraw : raw ++ q.1.rest with
        | nil => exact hone rfl hraw
        | cons d ds => exact htwo d ds rfl hraw
      exact ⟨c :: raw, rfl, hl.cons hb hd hc, hend⟩

/-- A text of which a word is read from a place on, up to the rest. -/
def Reads (p : Place) (cs word rest : List Char) : Prop :=
  ∀ position, ∃ position',
    bareWord position p cs = .ok (⟨word, rest, position'⟩, .outside)

theorem Reads.escaped {p : Place} {cs word rest : List Char} (h : Reads p cs word rest)
    (c : Char) :
    Reads p ('\\' :: c :: cs) ((if p.brackets = 0 then [c] else ['\\', c]) ++ word) rest := by
  intro position
  obtain ⟨position', h⟩ := h (position + 2)
  refine ⟨position', ?_⟩
  rw [bareWord, h]
  rfl

theorem Reads.cons {p : Place} {c : Char} (hb : c ≠ '\\')
    (hd : ¬ (p.brackets = 0 ∧ isDelimiter c = true)) (hq : ¬ (p.brackets = 0 ∧ c = '\''))
    {cs word rest : List Char} (h : Reads (p.after c) cs word rest) :
    Reads p (c :: cs) (c :: word) rest := by
  intro position
  obtain ⟨position', h⟩ := h (position + 1)
  refine ⟨position', ?_⟩
  rw [bareWord.eq_4 _ _ _ _ (by simp [hb]) (by simp [hb]), if_neg hd, if_neg hq, h]
  rfl

theorem Reads.inside {n : Nat} {quote : Option Char} {c : Char} (hb : c ≠ '\\')
    {cs word rest : List Char} (h : Reads (Place.after ⟨n + 1, quote⟩ c) cs word rest) :
    Reads ⟨n + 1, quote⟩ (c :: cs) (c :: word) rest :=
  .cons hb (by simp) (by simp) h

theorem Reads.inQuotes {quote : Char} {inner : List Char} (hi : InQuotes quote inner) {n : Nat}
    {cs word rest : List Char} (h : Reads ⟨n + 1, some quote⟩ cs word rest) :
    Reads ⟨n + 1, some quote⟩ (inner ++ cs) (inner ++ word) rest := by
  induction hi with
  | nil => exact h
  | escaped c _ ih => exact ih.escaped c
  | plain hq hb _ ih =>
    refine .inside hb ?_
    rw [Place.after]
    simp only [if_neg hq]
    exact ih

theorem Reads.enclosed {inner : List Char} (hi : Enclosed inner) {n : Nat}
    {cs word rest : List Char} (h : Reads ⟨n + 1, none⟩ cs word rest) :
    Reads ⟨n + 1, none⟩ (inner ++ cs) (inner ++ word) rest := by
  induction hi generalizing n cs word with
  | nil => exact h
  | escaped c _ ih => exact (ih h).escaped c
  | @quoted quote inner raw hq hi _ ih =>
    have hb : quote ≠ '\\' := by rcases hq with rfl | rfl <;> decide
    have hopen : Place.after ⟨n + 1, none⟩ quote = ⟨n + 1, some quote⟩ := by
      rcases hq with rfl | rfl <;> simp [Place.after]
    have hclose : Place.after ⟨n + 1, some quote⟩ quote = ⟨n + 1, none⟩ := by
      simp [Place.after]
    have hinner := Reads.inQuotes hi (.inside hb (hclose ▸ ih h))
    simpa using Reads.inside hb (hopen ▸ hinner)
  | @nested inner raw _ _ ihi ih =>
    have hinner := ihi (n := n + 1) (.inside (c := ']') (by decide) (ih h))
    simpa using @Reads.inside n none '[' (by decide) _ _ _ hinner
  | @plain c raw hc _ ih =>
    simp only [List.mem_cons, List.not_mem_nil, or_false, not_or] at hc
    refine .inside hc.1 ?_
    have hstay : Place.after ⟨n + 1, none⟩ c = ⟨n + 1, none⟩ := by simp [Place.after, hc]
    rw [hstay]
    exact ih h

theorem Reads.word {raw word : List Char} (hw : Word raw word) {rest : List Char}
    (hrest : AtDelimiter rest) : Reads .outside (raw ++ rest) word rest := by
  induction hw with
  | nil =>
    intro position
    cases rest with
    | nil => exact ⟨position, by rw [List.append_nil, bareWord]⟩
    | cons c rest =>
      have hc := hrest c rfl
      refine ⟨position, ?_⟩
      have hb : c ≠ '\\' := by
        rintro rfl
        exact absurd hc (by decide)
      rw [List.nil_append, bareWord.eq_4 _ _ _ _ (by simp [hb]) (by simp [hb]), if_pos ⟨rfl, hc⟩]
  | escaped c _ ih => exact ih.escaped c
  | @brackets inner raw word hi _ ih =>
    have hinner := Reads.enclosed (n := 0) hi (.inside (c := ']') (by decide) ih)
    have hopen := Reads.cons (p := .outside) (c := '[') (by decide) (by decide) (by decide) hinner
    simpa using hopen
  | @plain c raw word hd hc _ ih =>
    simp only [List.mem_cons, List.not_mem_nil, or_false, not_or] at hc
    refine .cons hc.1 (by simp [hd]) (by simp [hc]) ?_
    have hstay : Place.after .outside c = .outside := by
      by_cases h : c = ']' <;> simp [Place.after, Place.outside, hc, h]
    rw [hstay]
    exact ih

/-- **A bare word is read as it is written**, up to the first delimiter outside brackets. -/
theorem closedWord_iff {position : Nat} {cs word rest : List Char} :
    (∃ position', closedWord position cs = .ok ⟨word, rest, position'⟩) ↔
      ∃ raw, cs = raw ++ rest ∧ Word raw word ∧ AtDelimiter rest := by
  constructor
  · rintro ⟨position', h⟩
    unfold closedWord at h
    cases hb : bareWord position .outside cs with
    | error e => rw [hb] at h; cases h
    | ok r =>
      rw [hb] at h
      simp only [bind, Except.bind] at h
      split_ifs at h with hr
      have hsound := bareWord_sound (fun _ => rfl) hb hr
      rw [Except.ok.inj h] at hsound
      exact hsound
  · rintro ⟨raw, rfl, hw, hrest⟩
    obtain ⟨position', h⟩ := Reads.word hw hrest position
    exact ⟨position', by rw [closedWord, h]; rfl⟩

theorem Word.unique {raw w w' : List Char} (h : Word raw w) (h' : Word raw w') : w = w' := by
  obtain ⟨_, hr⟩ := @Reads.word _ _ h [] atDelimiter_nil 0
  obtain ⟨_, hr'⟩ := @Reads.word _ _ h' [] atDelimiter_nil 0
  rw [hr] at hr'
  cases hr'
  rfl

end StatesLang.Call
