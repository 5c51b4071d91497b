import StatesLang.Error
import StatesLang.Proofs.Grammar.Number

/-!
# The grammar of reference paths

* `Path.PlainName`, `Path.QuotedName`: names as they are written, and the names that they say.
* `Path.StepText`, `Path.StepsText`: one step and a row of steps as they are written.
* `Path.Says`: a text that starts at the root, holds no scan and goes on with steps.
* `Path.parseSteps_sound`, `Path.parseSteps_complete`: the steps that are read are those of the
  grammar.
* **`Path.parse_iff_grammar`**: the parser reads exactly the texts of the grammar.
-/

namespace StatesLang

/-! ## Blanks -/

namespace Text

/-- Only blanks. -/
def Blanks (cs : List Char) : Prop :=
  ∀ c ∈ cs, isBlank c = true

theorem blanks_takeWhile (cs : List Char) : Blanks (cs.takeWhile isBlank) :=
  List.all_eq_true.1 List.all_takeWhile

theorem skipBlanks_append {before cs : List Char} (hb : Blanks before)
    (hc : ∀ c ∈ cs.head?, isBlank c = false) : skipBlanks (before ++ cs) = cs := by
  unfold skipBlanks
  rw [List.dropWhile_append_of_pos hb]
  cases cs with
  | nil => rfl
  | cons c cs => simp [hc c (by simp)]

theorem isBlank_of_isDigit {c : Char} (h : c.isDigit = true) : isBlank c = false := by
  have hc : 48 ≤ c.toNat ∧ c.toNat ≤ 57 := by
    simp only [Char.isDigit, Bool.and_eq_true, decide_eq_true_eq] at h
    exact h
  simp only [isBlank, Bool.or_eq_false_iff, Bool.and_eq_false_iff, decide_eq_false_iff_not,
    beq_eq_false_iff_ne]
  omega

theorem exists_trimChars (cs : List Char) :
    ∃ before after, cs = before ++ trimChars cs ++ after ∧ Blanks before ∧ Blanks after := by
  have hfront : cs = cs.takeWhile isBlank ++ skipBlanks cs :=
    List.takeWhile_append_dropWhile.symm
  have hback : (skipBlanks cs).reverse =
      (skipBlanks cs).reverse.takeWhile isBlank ++ skipBlanks (skipBlanks cs).reverse :=
    List.takeWhile_append_dropWhile.symm
  refine ⟨cs.takeWhile isBlank, ((skipBlanks cs).reverse.takeWhile isBlank).reverse, ?_,
    blanks_takeWhile cs, fun c hc => ?_⟩
  · have h := congrArg List.reverse hback
    rw [List.reverse_reverse, List.reverse_append] at h
    rw [List.append_assoc, trimChars, ← h]
    exact hfront
  · exact blanks_takeWhile _ c (List.mem_reverse.1 hc)

theorem trimChars_append {before cs after : List Char} (hb : Blanks before) (ha : Blanks after)
    (hne : cs ≠ []) (hc : ∀ c ∈ cs, isBlank c = false) :
    trimChars (before ++ cs ++ after) = cs := by
  have hhead : ∀ c ∈ (cs ++ after).head?, isBlank c = false := by
    intro c h
    obtain ⟨d, ds, rfl⟩ := List.exists_cons_of_ne_nil hne
    exact hc c (by simpa using Or.inl (Option.mem_some_iff.1 h).symm)
  have hlast : ∀ c ∈ cs.reverse.head?, isBlank c = false :=
    fun c h => hc c (List.mem_reverse.1 (List.mem_of_mem_head? h))
  unfold trimChars
  rw [List.append_assoc, skipBlanks_append hb hhead, List.reverse_append,
    skipBlanks_append (fun c h => ha c (List.mem_reverse.1 h)) hlast, List.reverse_reverse]

end Text

namespace Path

/-! ## Names -/

/-- The characters that a name behind a dot cannot hold without an escape. -/
def reserved : List Char :=
  ['.', '[', ']', '*', '?', '\'', '"', '\\']

/-- A name behind a dot as it is written, and the name that it says. -/
inductive PlainName : List Char → List Char → Prop
  | nil : PlainName [] []
  | escaped {raw name} (c : Char) (h : PlainName raw name) :
      PlainName ('\\' :: c :: raw) (c :: name)
  | plain {c raw name} (hc : c ∉ reserved) (h : PlainName raw name) :
      PlainName (c :: raw) (c :: name)

/-- A name as it is written before a closing quote, and the name that it says. -/
inductive QuotedName (quote : Char) : List Char → List Char → Prop
  | nil : QuotedName quote [] []
  | escaped {raw name} (c : Char) (h : QuotedName quote raw name) :
      QuotedName quote ('\\' :: c :: raw) (c :: name)
  | plain {c raw name} (hq : c ≠ quote) (hb : c ≠ '\\') (h : QuotedName quote raw name) :
      QuotedName quote (c :: raw) (c :: name)

/-- The text ends here, or the next step starts. -/
def AtStep (cs : List Char) : Prop :=
  ∀ c ∈ cs.head?, c = '.' ∨ c = '['

theorem atStep_nil : AtStep [] :=
  nofun

theorem unquotedName_sound {position : Nat} {cs : List Char} {p : Part (List Char)}
    (h : unquotedName position cs = .ok p) :
    ∃ raw, cs = raw ++ p.rest ∧ PlainName raw p.content ∧ AtStep p.rest := by
  fun_induction unquotedName position cs generalizing p with
  | case1 => cases h; exact ⟨[], rfl, .nil, atStep_nil⟩
  | case2 => cases h
  | case3 position c rest ih =>
    cases hr : unquotedName (position + 2) rest with
    | error e => rw [hr] at h; cases h
    | ok q =>
      rw [hr] at h
      cases h
      obtain ⟨raw, rfl, hname, hend⟩ := ih hr
      exact ⟨'\\' :: c :: raw, rfl, .escaped c hname, hend⟩
  | case4 position c rest _ _ hc =>
    cases h
    refine ⟨[], rfl, .nil, fun d hd => ?_⟩
    rw [List.head?_cons, Option.mem_some_iff] at hd
    rw [← hd]
    exact hc
  | case5 => cases h
  | case6 => cases h
  | case7 position c rest hone htwo hc hc' hc'' ih =>
    cases hr : unquotedName (position + 1) rest with
    | error e => rw [hr] at h; cases h
    | ok q =>
      rw [hr] at h
      cases h
      obtain ⟨raw, rfl, hname, hend⟩ := ih hr
      have hb : c ≠ '\\' := by
        rintro rfl
        cases hraw : raw ++ q.rest with
        | nil => exact hone rfl hraw
        | cons d ds => exact htwo d ds rfl hraw
      refine ⟨c :: raw, rfl, .plain ?_ hname, hend⟩
      simp only [not_or] at hc hc' hc''
      simp [reserved, hc, hc', hc'', hb]

theorem unquotedName_complete {raw name : List Char} (h : PlainName raw name) {rest : List Char}
    (hrest : AtStep rest) (position : Nat) :
    ∃ position', unquotedName position (raw ++ rest) = .ok ⟨name, rest, position'⟩ := by
  induction h generalizing position with
  | nil =>
    cases rest with
    | nil => exact ⟨position, by rw [List.append_nil, unquotedName]⟩
    | cons c rest =>
      have hc := hrest c rfl
      refine ⟨position, ?_⟩
      rw [List.nil_append, unquotedName.eq_4]
      · rw [if_pos hc]
      · rintro rfl
        simp at hc
      · rintro _ _ rfl
        simp at hc
  | escaped c _ ih =>
    obtain ⟨position', h⟩ := ih (position + 2)
    refine ⟨position', ?_⟩
    rw [List.cons_append, List.cons_append, unquotedName, h]
    rfl
  | @plain c raw name hc _ ih =>
    obtain ⟨position', h⟩ := ih (position + 1)
    simp only [reserved, List.mem_cons, List.not_mem_nil, or_false, not_or] at hc
    refine ⟨position', ?_⟩
    rw [List.cons_append, unquotedName.eq_4 position c (raw ++ rest) (by simp [hc]) (by simp [hc]),
      if_neg (by simp [hc]), if_neg (by simp [hc]), if_neg (by simp [hc]), h]
    rfl

theorem quotedName_sound {quote : Char} {start position : Nat} {cs : List Char}
    {p : Part (List Char)} (h : quotedName quote start position cs = .ok p) :
    ∃ raw, cs = raw ++ quote :: p.rest ∧ QuotedName quote raw p.content := by
  fun_induction quotedName quote start position cs generalizing p with
  | case1 => cases h
  | case2 => cases h
  | case3 position c rest ih =>
    cases hr : quotedName quote start (position + 2) rest with
    | error e => rw [hr] at h; cases h
    | ok q =>
      rw [hr] at h
      cases h
      obtain ⟨raw, rfl, hname⟩ := ih hr
      exact ⟨'\\' :: c :: raw, rfl, .escaped c hname⟩
  | case4 => cases h; exact ⟨[], rfl, .nil⟩
  | case5 position c rest hone htwo hc ih =>
    cases hr : quotedName quote start (position + 1) rest with
    | error e => rw [hr] at h; cases h
    | ok q =>
      rw [hr] at h
      cases h
      obtain ⟨raw, rfl, hname⟩ := ih hr
      refine ⟨c :: raw, rfl, .plain hc ?_ hname⟩
      rintro rfl
      obtain ⟨d, ds, hraw⟩ := List.exists_cons_of_ne_nil
        (show raw ++ quote :: q.rest ≠ [] by simp)
      exact htwo d ds rfl hraw

theorem quotedName_complete {quote : Char} (hquote : quote ≠ '\\') {raw name : List Char}
    (h : QuotedName quote raw name) (rest : List Char) (start position : Nat) :
    ∃ position', quotedName quote start position (raw ++ quote :: rest) =
      .ok ⟨name, rest, position'⟩ := by
  induction h generalizing position with
  | nil =>
    refine ⟨position + 1, ?_⟩
    rw [List.nil_append, quotedName.eq_4 _ _ _ _ _ (by simp [hquote]) (by simp [hquote]),
      if_pos rfl]
  | escaped c _ ih =>
    obtain ⟨position', h⟩ := ih (position + 2)
    refine ⟨position', ?_⟩
    rw [List.cons_append, List.cons_append, quotedName, h]
    rfl
  | plain hq hb _ ih =>
    obtain ⟨position', h⟩ := ih (position + 1)
    refine ⟨position', ?_⟩
    rw [List.cons_append, quotedName.eq_4 _ _ _ _ _ (by simp [hb]) (by simp [hb]), if_neg hq, h]
    rfl

/-! ## Steps in brackets -/

/-- An unsigned integer of 64 bits as it is written. It may carry a plus sign. -/
inductive IndexText : List Char → UInt64 → Prop
  | mk {sign ds i} (hsign : sign = [] ∨ sign = ['+']) (hne : ds ≠ [])
      (hds : ∀ d ∈ ds, d.isDigit = true) (hi : i.toNat = Literal.digitsValue ds) :
      IndexText (sign ++ ds) i

theorem uint64?_iff {cs : List Char} {i : UInt64} :
    Literal.uint64? cs = some i ↔ IndexText cs i := by
  constructor
  · intro h
    by_cases hsign : cs.head? = some '+'
    · obtain ⟨ds, rfl⟩ := List.head?_eq_some_iff.1 hsign
      obtain ⟨hne, hds, hi⟩ := Literal.natural?_eq_some.1 (Literal.uint64?_plus.1 h)
      exact @IndexText.mk ['+'] ds i (.inr rfl) hne hds hi
    · obtain ⟨hne, hds, hi⟩ := Literal.natural?_eq_some.1 ((Literal.uint64?_unsigned hsign).1 h)
      exact @IndexText.mk [] cs i (.inl rfl) hne hds hi
  · rintro ⟨rfl | rfl, hne, hds, hi⟩
    · next ds =>
      have hsign : ds.head? ≠ some '+' := fun hsign =>
        absurd (hds '+' (List.mem_of_mem_head? hsign)) (by decide)
      exact (Literal.uint64?_unsigned hsign).2 (Literal.natural?_eq_some.2 ⟨hne, hds, hi⟩)
    · exact Literal.uint64?_plus.2 (Literal.natural?_eq_some.2 ⟨hne, hds, hi⟩)

theorem IndexText.mem {cs : List Char} {i : UInt64} (h : IndexText cs i) {c : Char} (hc : c ∈ cs) :
    c.isDigit = true ∨ c = '+' := by
  obtain ⟨hsign, -, hds, -⟩ := h
  rcases List.mem_append.1 hc with hc | hc
  · rcases hsign with rfl | rfl
    · cases hc
    · exact .inr (List.mem_singleton.1 hc)
  · exact .inl (hds c hc)

theorem IndexText.ne_nil {cs : List Char} {i : UInt64} (h : IndexText cs i) : cs ≠ [] := by
  obtain ⟨-, hne, -, -⟩ := h
  simp [hne]

theorem IndexText.notMem {cs : List Char} {i : UInt64} (h : IndexText cs i) {c : Char}
    (hd : c.isDigit = false) (hs : c ≠ '+') : c ∉ cs := by
  intro hc
  rcases h.mem hc with hc | hc
  · rw [hd] at hc
    cases hc
  · exact hs hc

theorem IndexText.notMem_padded {before cs after : List Char} {i : UInt64} (h : IndexText cs i)
    (hb : Text.Blanks before) (ha : Text.Blanks after) {c : Char} (hblank : Text.isBlank c = false)
    (hd : c.isDigit = false) (hs : c ≠ '+') : c ∉ before ++ cs ++ after := by
  have hno : ∀ {cs}, Text.Blanks cs → c ∉ cs := by
    intro cs hcs hc
    rw [hcs c hc] at hblank
    cases hblank
  rw [List.mem_append, List.mem_append, not_or, not_or]
  exact ⟨⟨hno hb, h.notMem hd hs⟩, hno ha⟩

theorem arrayIndex_iff {cs : List Char} {s : Step} :
    arrayIndex cs = .ok s ↔ ∃ i, s = .index i ∧ IndexText cs i := by
  unfold arrayIndex
  constructor
  · intro h
    split_ifs at h
    split at h
    · next i hi =>
      cases h
      exact ⟨i, rfl, uint64?_iff.1 hi⟩
    · cases h
  · rintro ⟨i, rfl, hi⟩
    have hq : cs.head? ≠ some '?' := fun h =>
      hi.notMem (by decide) (by decide) (List.mem_of_mem_head? h)
    rw [if_neg hq, if_neg (hi.notMem (by decide) (by decide)),
      if_neg (hi.notMem (by decide) (by decide)), if_neg (hi.notMem (by decide) (by decide)),
      uint64?_iff.2 hi]

/-- A step in brackets as it is written behind the opening one. -/
inductive Bracketed : List Char → Step → Prop
  | field {quote raw name} (hquote : quote = '\'' ∨ quote = '"') (h : QuotedName quote raw name) :
      Bracketed (quote :: raw ++ [quote, ']']) (.field (String.ofList name))
  | index {before cs after i} (hb : Text.Blanks before) (h : IndexText cs i)
      (ha : Text.Blanks after) : Bracketed (before ++ cs ++ after ++ [']']) (.index i)

theorem indexer_sound {position : Nat} {cs : List Char} {p : Part Step}
    (h : indexer position cs = .ok p) : ∃ raw, cs = raw ++ p.rest ∧ Bracketed raw p.content := by
  cases cs with
  | nil => cases h
  | cons c rest =>
    by_cases hc : c = '\'' ∨ c = '"'
    · simp only [indexer, hc, if_true] at h
      cases hq : quotedName c position (position + 1) rest with
      | error e => rw [hq] at h; cases h
      | ok q =>
        obtain ⟨raw, rfl, hname⟩ := quotedName_sound hq
        rw [hq] at h
        simp only [bind, Except.bind] at h
        split at h
        · next behind he =>
          cases h
          exact ⟨_, by simp [he], .field hc hname⟩
        · cases h
    · simp only [indexer, hc, if_false] at h
      split at h
      · cases h
      · next d behind he =>
        have hclose : d = ']' := by
          have hhead := List.head?_dropWhile_not (fun x => decide (x ≠ ']')) (c :: rest)
          rw [he] at hhead
          simpa using hhead
        have hcs := List.takeWhile_append_dropWhile (p := fun x => decide (x ≠ ']'))
          (l := c :: rest)
        rw [he, hclose] at hcs
        cases hi : arrayIndex (Text.trimChars ((c :: rest).takeWhile (· ≠ ']'))) with
        | error e => rw [hi] at h; cases h
        | ok s =>
          rw [hi] at h
          cases h
          obtain ⟨i, rfl, htext⟩ := arrayIndex_iff.1 hi
          obtain ⟨before, after, htrim, hb, ha⟩ :=
            Text.exists_trimChars ((c :: rest).takeWhile (· ≠ ']'))
          refine ⟨_, ?_, .index hb htext ha⟩
          rw [← htrim, List.append_assoc]
          exact hcs.symm

theorem indexer_index {content : List Char} {s : Step} (hne : content ≠ [])
    (hq : '\'' ∉ content ∧ '"' ∉ content) (hclose : ']' ∉ content)
    (hs : arrayIndex (Text.trimChars content) = .ok s) (rest : List Char) (position : Nat) :
    indexer position (content ++ ']' :: rest) =
      .ok ⟨s, rest, position + content.length + 1⟩ := by
  have hall : ∀ d ∈ content, decide (d ≠ ']') = true :=
    fun d hd => decide_eq_true fun h => hclose (h ▸ hd)
  have htake : (content ++ ']' :: rest).takeWhile (fun x => decide (x ≠ ']')) = content := by
    rw [List.takeWhile_append_of_pos hall]
    simp
  have hdrop : (content ++ ']' :: rest).dropWhile (fun x => decide (x ≠ ']')) = ']' :: rest := by
    rw [List.dropWhile_append_of_pos hall]
    simp
  obtain ⟨c, content, rfl⟩ := List.exists_cons_of_ne_nil hne
  have hc : ¬ (c = '\'' ∨ c = '"') := by
    rintro (rfl | rfl)
    · exact hq.1 List.mem_cons_self
    · exact hq.2 List.mem_cons_self
  rw [List.cons_append] at htake hdrop ⊢
  simp only [indexer, if_neg hc, htake, hdrop, hs]
  rfl

theorem indexer_complete {raw : List Char} {s : Step} (h : Bracketed raw s) (rest : List Char)
    (position : Nat) :
    ∃ position', indexer position (raw ++ rest) = .ok ⟨s, rest, position'⟩ := by
  cases h with
  | @field quote raw name hquote h =>
    have hb : quote ≠ '\\' := by rcases hquote with rfl | rfl <;> decide
    obtain ⟨position', hq⟩ := quotedName_complete hb h (']' :: rest) position (position + 1)
    refine ⟨position' + 1, ?_⟩
    have hraw : quote :: raw ++ [quote, ']'] ++ rest = quote :: (raw ++ quote :: ']' :: rest) := by
      simp
    rw [hraw, indexer, if_pos hquote, hq]
    rfl
  | @index before cs after i hb h ha =>
    have htrim : Text.trimChars (before ++ cs ++ after) = cs := by
      refine Text.trimChars_append hb ha h.ne_nil fun c hc => ?_
      rcases h.mem hc with hd | rfl
      · exact Text.isBlank_of_isDigit hd
      · decide
    have hno := fun d => @IndexText.notMem_padded before cs after i h hb ha d
    have hs : arrayIndex (Text.trimChars (before ++ cs ++ after)) = .ok (.index i) := by
      rw [htrim]
      exact arrayIndex_iff.2 ⟨i, rfl, h⟩
    rw [List.append_assoc, List.singleton_append]
    exact ⟨_, indexer_index (by simp [h.ne_nil])
      ⟨hno '\'' (by decide) (by decide) (by decide), hno '"' (by decide) (by decide) (by decide)⟩
      (hno ']' (by decide) (by decide) (by decide)) hs rest position⟩

/-! ## Paths -/

/-- A step as it is written, and the step that it says. -/
inductive StepText : List Char → Step → Prop
  | dotted {raw name} (h : PlainName raw name) (hne : name ≠ []) :
      StepText ('.' :: raw) (.field (String.ofList name))
  | bracketed {raw s} (h : Bracketed raw s) : StepText ('[' :: raw) s

/-- Steps as they are written one behind the other, from left to right. -/
inductive StepsText : List Char → List Step → Prop
  | nil : StepsText [] []
  | cons {raw s rest ss} (h : StepText raw s) (hs : StepsText rest ss) :
      StepsText (raw ++ rest) (s :: ss)

/-- A text that says the steps of a path: the root, and no scan in what follows it. -/
def Says (cs : List Char) (steps : List Step) : Prop :=
  ∃ rest, cs = '$' :: rest ∧ ¬ ['.', '.'] <:+: cs ∧ StepsText rest steps

theorem StepsText.atStep {cs : List Char} {steps : List Step} (h : StepsText cs steps) :
    AtStep cs := by
  intro c hc
  cases h with
  | nil => cases hc
  | cons h _ =>
    cases h with
    | dotted => exact .inl (Option.mem_some_iff.1 hc).symm
    | bracketed => exact .inr (Option.mem_some_iff.1 hc).symm

theorem parseSteps_sound {position : Nat} {cs : List Char} {steps : List Step}
    (h : parseSteps position cs = .ok steps) : StepsText cs steps := by
  fun_induction parseSteps position cs generalizing steps with
  | case1 => cases h; exact .nil
  | case2 => cases h
  | case3 => cases h
  | case4 position rest p hp hlen hne ih =>
    cases hr : parseSteps p.position p.rest with
    | error e => rw [hr] at h; cases h
    | ok ss =>
      rw [hr] at h
      cases h
      obtain ⟨raw, rfl, hname, -⟩ := unquotedName_sound hp
      exact .cons (.dotted hname hne) (ih hr)
  | case5 => cases h
  | case6 position rest p hp hlen hne ih =>
    cases hr : parseSteps p.position p.rest with
    | error e => rw [hr] at h; cases h
    | ok ss =>
      rw [hr] at h
      cases h
      obtain ⟨raw, rfl, hs⟩ := indexer_sound hp
      exact .cons (.bracketed hs) (ih hr)
  | case7 => cases h

theorem parseSteps_complete {cs : List Char} {steps : List Step} (h : StepsText cs steps)
    (position : Nat) : parseSteps position cs = .ok steps := by
  induction h generalizing position with
  | nil => rw [parseSteps]
  | @cons raw s rest ss h hs ih =>
    cases h with
    | @dotted raw name h hne =>
      obtain ⟨position', hp⟩ := unquotedName_complete h hs.atStep (position + 1)
      rw [List.cons_append, parseSteps, if_pos rfl]
      split
      · next he => rw [hp] at he; cases he
      · next he =>
        rw [hp] at he
        cases he
        rw [if_neg hne, ih]
        rfl
    | bracketed h =>
      obtain ⟨position', hp⟩ := indexer_complete h rest (position + 1)
      rw [List.cons_append, parseSteps, if_neg (by decide), if_pos rfl]
      split
      · next he => rw [hp] at he; cases he
      · next he =>
        rw [hp] at he
        cases he
        rw [ih]
        rfl

theorem hasScan_iff {cs : List Char} : hasScan cs = true ↔ ['.', '.'] <:+: cs := by
  fun_induction hasScan cs with
  | case1 rest => simpa using ⟨[], rest, rfl⟩
  | case2 c rest hne ih =>
    rw [ih, List.infix_cons_iff]
    constructor
    · exact .inr
    · rintro (⟨t, ht⟩ | h)
      · rw [List.cons_append, List.cons.injEq] at ht
        exact absurd ht.2.symm (hne t ht.1.symm)
      · exact h
  | case3 => simp

theorem parseChars_iff {cs : List Char} {steps : List Step} :
    parseChars cs = .ok steps ↔ Says cs steps := by
  cases cs with
  | nil => exact ⟨nofun, fun ⟨_, h, _⟩ => (by cases h)⟩
  | cons c rest =>
    simp only [parseChars, Says]
    constructor
    · intro h
      split_ifs at h with hc hs
      rw [ne_eq, Decidable.not_not] at hc
      exact ⟨rest, by rw [hc], mt hasScan_iff.2 hs, parseSteps_sound h⟩
    · rintro ⟨rest', he, hs, h⟩
      obtain ⟨rfl, rfl⟩ := List.cons.inj he
      rw [if_neg (by simp), if_neg (mt hasScan_iff.1 hs)]
      exact parseSteps_complete h 1

theorem parse_eq_ok {text : String} {p : Path} :
    parse text = .ok p ↔ p.text = text ∧ Says text.toList p.steps := by
  obtain ⟨text', steps⟩ := p
  rw [← parseChars_iff]
  unfold parse
  cases parseChars text.toList with
  | error d => simp [bind, Except.bind]
  | ok ss =>
    simp only [bind, Except.bind, pure, Except.pure, Except.ok.injEq, Path.mk.injEq]
    exact and_congr_left' eq_comm

theorem isPath_eq_false {text : String} : isPath text = false ↔ ∀ p, parse text ≠ .ok p := by
  unfold isPath
  cases parse text <;> simp

/-- **The parser reads exactly the texts of the grammar**, each as the steps that it says; any other
text is refused as an invalid path. -/
theorem parse_iff_grammar (text : String) :
    (∀ steps, parse text = .ok ⟨text, steps⟩ ↔ Says text.toList steps) ∧
      ((¬ ∃ steps, Says text.toList steps) ↔
        ∃ d, parse text = .error d ∧ (Error.path text d).kind = .invalidPath) := by
  refine ⟨fun steps => by rw [parse_eq_ok]; exact and_iff_right rfl, ?_⟩
  cases h : parse text with
  | ok p =>
    have hp := (parse_eq_ok.1 h).2
    simp only [reduceCtorEq, false_and, exists_false, iff_false, Classical.not_not]
    exact ⟨p.steps, hp⟩
  | error d =>
    refine iff_of_true ?_ ⟨d, rfl, rfl⟩
    rintro ⟨steps, hs⟩
    rw [(parse_eq_ok (p := ⟨text, steps⟩)).2 ⟨rfl, hs⟩] at h
    cases h

end Path

end StatesLang
