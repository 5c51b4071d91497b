import StatesLang.Path.Parser
import StatesLang.Proofs.Grammar.Path

/-!
# Balance of paths

The lenient test of a path counts brackets and parentheses together. The brackets of a reference
path always close, so that only the parentheses in its names count.

* `Path.Paired`: parentheses that close, counted by themselves.
* `Path.bare`, `Path.DottedNames`: what stands outside escapes and outside brackets.
* `Path.isClosed`: the test with a count that has no bound. `Path.isBalanced_eq_isClosed`: the two
  agree on texts that are too short for the count to wrap around.
* `Path.isClosed_bracketed`, `Path.isClosed_dotted`: how the test takes one step.
* **`Path.isBalanced_iff_paired`**: a reference path is balanced exactly if the parentheses in its
  names pair up.
-/

namespace StatesLang.Path

/-! ## Parentheses -/

/-- So many parentheses are open before the text, which closes them and all its own. -/
def Closes (depth : Nat) (cs : List Char) : Prop :=
  depth + cs.count '(' = cs.count ')' ∧
    ∀ front, front <+: cs → front.count ')' ≤ depth + front.count '('

/-- No front of the text closes more parentheses than it opens, and the whole text closes all. -/
def Paired (cs : List Char) : Prop :=
  Closes 0 cs

theorem forall_prefix_cons_iff {P : List Char → Prop} {c : Char} {cs : List Char} :
    (∀ front, front <+: c :: cs → P front) ↔ P [] ∧ ∀ front, front <+: cs → P (c :: front) := by
  constructor
  · intro h
    exact ⟨h [] List.nil_prefix, fun front hf => h _ (List.cons_prefix_cons.2 ⟨rfl, hf⟩)⟩
  · rintro ⟨hnil, hcons⟩ front hf
    rcases List.prefix_cons_iff.1 hf with rfl | ⟨front, rfl, hfront⟩
    · exact hnil
    · exact hcons front hfront

theorem closes_nil {depth : Nat} : Closes depth [] ↔ depth = 0 := by
  simp [Closes]

theorem closes_open {depth : Nat} {cs : List Char} :
    Closes depth ('(' :: cs) ↔ Closes (depth + 1) cs := by
  simp only [Closes, forall_prefix_cons_iff, List.count_cons_self, List.count_nil,
    List.count_cons_of_ne (show '(' ≠ ')' by decide), Nat.zero_le, true_and,
    Nat.add_right_comm depth 1, ← Nat.add_assoc]

theorem closes_close {depth : Nat} {cs : List Char} :
    Closes depth (')' :: cs) ↔ 0 < depth ∧ Closes (depth - 1) cs := by
  simp only [Closes, forall_prefix_cons_iff, List.count_cons_self, List.count_nil,
    List.count_cons_of_ne (show ')' ≠ '(' by decide), Nat.zero_le, true_and]
  constructor
  · rintro ⟨hcount, hfront⟩
    have hpos := hfront [] List.nil_prefix
    rw [List.count_nil, List.count_nil] at hpos
    refine ⟨by omega, by omega, fun front hf => ?_⟩
    have := hfront front hf
    omega
  · rintro ⟨hpos, hcount, hfront⟩
    refine ⟨by omega, fun front hf => ?_⟩
    have := hfront front hf
    omega

theorem closes_other {depth : Nat} {c : Char} {cs : List Char} (ho : c ≠ '(') (hc : c ≠ ')') :
    Closes depth (c :: cs) ↔ Closes depth cs := by
  simp only [Closes, forall_prefix_cons_iff, List.count_nil, List.count_cons_of_ne ho,
    List.count_cons_of_ne hc, Nat.zero_le, true_and]

/-! ## The test, character by character -/

/-- Whether a text closes what it opens, counted without a bound. -/
def isClosed (depth : Nat) (quote : Option Char) : List Char → Bool
  | [] => depth == 0 && quote.isNone
  | ['\\'] => false
  | '\\' :: _ :: rest => isClosed depth quote rest
  | c :: rest =>
    match quote with
    | some q => isClosed depth (if c = q then none else some q) rest
    | none =>
      if c = '\'' ∨ c = '"' then isClosed depth (some c) rest
      else if c = '[' ∨ c = '(' then isClosed (depth + 1) none rest
      else if c = ']' ∨ c = ')' then
        match depth with
        | 0 => false
        | depth + 1 => isClosed depth none rest
      else isClosed depth none rest

/-- The characters that the test takes notice of, but for parentheses. -/
def guards : List Char :=
  ['\\', '\'', '"', '[', ']']

theorem isBalanced_plain {depth : Int32} {c : Char} {cs : List Char}
    (hc : c ∉ '(' :: ')' :: guards) :
    isBalanced depth none (c :: cs) = isBalanced depth none cs := by
  simp only [guards, List.mem_cons, List.not_mem_nil, or_false, not_or] at hc
  rw [isBalanced.eq_5 _ _ _ (by simp [hc]) (by simp [hc])]
  simp [hc]

theorem isBalanced_root {cs : List Char} :
    isBalanced 0 none ('$' :: cs) = isBalanced 0 none cs :=
  isBalanced_plain (by decide)

/-- The first number that a count of 32 bits does not reach. -/
def countLimit : Nat :=
  0x80000000

section Count

variable {depth : Nat}

theorem toInt_count (h : depth < countLimit) : (Int32.ofNat depth).toInt = depth :=
  Int32.toInt_ofNat_of_lt h

theorem count_eq_zero_iff (h : depth < countLimit) : Int32.ofNat depth = 0 ↔ depth = 0 := by
  rw [← Int32.toInt_inj, toInt_count h]
  exact Int.natCast_eq_zero

theorem not_count_neg (h : depth < countLimit) : ¬ Int32.ofNat depth < 0 := by
  rw [Int32.lt_iff_toInt_lt, toInt_count h]
  exact Int.not_lt.2 (Int.natCast_nonneg depth)

theorem count_succ_sub_one : Int32.ofNat (depth + 1) - 1 = Int32.ofNat depth := by
  rw [Int32.ofNat_add]
  exact Int32.add_sub_cancel _ _

/-- The count is what is open, as long as the text is too short to open more than it holds. -/
theorem isBalanced_eq_isClosed {quote : Option Char} {cs : List Char}
    (h : depth + cs.length < countLimit) :
    isBalanced (Int32.ofNat depth) quote cs = isClosed depth quote cs := by
  fun_induction isClosed depth quote cs with
  | case1 depth quote =>
    have hdepth : depth < countLimit := h
    rw [isBalanced, Bool.eq_iff_iff, Bool.and_eq_true, beq_iff_eq, Bool.and_eq_true, beq_iff_eq,
      count_eq_zero_iff hdepth]
  | case2 => rfl
  | case3 depth quote c rest ih =>
    rw [isBalanced]
    exact ih (Nat.lt_of_succ_lt (Nat.lt_of_succ_lt h))
  | case4 depth c rest hone htwo quote ih =>
    rw [isBalanced.eq_4 _ _ _ _ hone htwo]
    exact ih (Nat.lt_of_succ_lt h)
  | case5 depth c rest hone htwo hquote ih =>
    rw [isBalanced.eq_5 _ _ _ hone htwo, if_pos hquote]
    exact ih (Nat.lt_of_succ_lt h)
  | case6 depth c rest hone htwo hquote ho ih =>
    rw [isBalanced.eq_5 _ _ _ hone htwo, if_neg hquote, if_pos ho]
    rw [List.length_cons] at h
    have hrest := ih (by omega)
    rwa [Int32.ofNat_add] at hrest
  | case7 c rest hone htwo hquote ho hc =>
    rw [isBalanced.eq_5 _ _ _ hone htwo, if_neg hquote, if_neg ho, if_pos hc, if_pos (by decide)]
  | case8 c rest hone htwo hquote ho hc depth ih =>
    rw [List.length_cons] at h
    rw [isBalanced.eq_5 _ _ _ hone htwo, if_neg hquote, if_neg ho, if_pos hc, count_succ_sub_one,
      if_neg (not_count_neg (by omega))]
    exact ih (by omega)
  | case9 depth c rest hone htwo hquote ho hc ih =>
    rw [isBalanced.eq_5 _ _ _ hone htwo, if_neg hquote, if_neg ho, if_neg hc]
    exact ih (Nat.lt_of_succ_lt h)

theorem isBalanced_zero {quote : Option Char} {cs : List Char} (h : cs.length < countLimit) :
    isBalanced 0 quote cs = isClosed 0 quote cs :=
  isBalanced_eq_isClosed (by rwa [Nat.zero_add])

end Count

section Test

variable {depth : Nat} {quote c : Char} {cs : List Char}

theorem isClosed_quoted (hc : c ≠ '\\') :
    isClosed depth (some quote) (c :: cs) =
      isClosed depth (if c = quote then none else some quote) cs :=
  isClosed.eq_4 _ _ _ _ (by simp [hc]) (by simp [hc])

theorem isClosed_bare (hc : c ≠ '\\') :
    isClosed depth none (c :: cs) =
      if c = '\'' ∨ c = '"' then isClosed depth (some c) cs
      else if c = '[' ∨ c = '(' then isClosed (depth + 1) none cs
      else if c = ']' ∨ c = ')' then 0 < depth && isClosed (depth - 1) none cs
      else isClosed depth none cs := by
  cases depth with
  | zero => rw [isClosed.eq_5 _ _ (by simp [hc]) (by simp [hc])]; rfl
  | succ depth => rw [isClosed.eq_6 _ _ _ (by simp [hc]) (by simp [hc])]; simp

theorem mem_reserved_of_mem_guards (h : c ∈ guards) : c ∈ reserved := by
  simp only [guards, List.mem_cons, List.not_mem_nil, or_false] at h
  rcases h with rfl | rfl | rfl | rfl | rfl <;> decide

theorem isClosed_unguarded (hc : c ∉ guards) :
    isClosed depth none (c :: cs) =
      if c = '(' then isClosed (depth + 1) none cs
      else if c = ')' then 0 < depth && isClosed (depth - 1) none cs
      else isClosed depth none cs := by
  simp only [guards, List.mem_cons, List.not_mem_nil, or_false, not_or] at hc
  rw [isClosed_bare hc.1]
  simp [hc]

theorem isClosed_iff_closes (h : ∀ c ∈ cs, c ∉ guards) :
    isClosed depth none cs = true ↔ Closes depth cs := by
  induction cs generalizing depth with
  | nil => simp [isClosed, closes_nil]
  | cons c cs ih =>
    have hrest := fun depth => @ih depth fun d hd => h d (List.mem_cons_of_mem _ hd)
    rw [isClosed_unguarded (h c List.mem_cons_self)]
    split_ifs with ho hc
    · rw [ho, closes_open, hrest]
    · rw [hc, closes_close, Bool.and_eq_true, decide_eq_true_iff, hrest]
    · rw [closes_other ho hc, hrest]

end Test

/-! ## The test of steps -/

/-- What stands outside escapes. -/
def bare : List Char → List Char
  | [] => []
  | ['\\'] => []
  | '\\' :: _ :: cs => bare cs
  | c :: cs => c :: bare cs

/-- Steps as they are written, and the names behind dots as they are written. -/
inductive DottedNames : List Char → List (List Char) → Prop
  | nil : DottedNames [] []
  | dotted {raw name rest raws} (h : PlainName raw name) (hs : DottedNames rest raws) :
      DottedNames ('.' :: (raw ++ rest)) (raw :: raws)
  | bracketed {raw s rest raws} (h : Bracketed raw s) (hs : DottedNames rest raws) :
      DottedNames ('[' :: (raw ++ rest)) raws

theorem StepsText.exists_dottedNames {cs : List Char} {ss : List Step} (h : StepsText cs ss) :
    ∃ raws, DottedNames cs raws := by
  induction h with
  | nil => exact ⟨[], .nil⟩
  | cons h _ ih =>
    obtain ⟨raws, hs⟩ := ih
    cases h with
    | dotted h => exact ⟨_, .dotted h hs⟩
    | bracketed h => exact ⟨raws, .bracketed h hs⟩

theorem bare_cons {c : Char} (hc : c ≠ '\\') (cs : List Char) : bare (c :: cs) = c :: bare cs :=
  bare.eq_4 _ _ (by simp [hc]) (by simp [hc])

theorem ne_of_notMem_reserved {c : Char} (hc : c ∉ reserved) : c ≠ '\\' := by
  rintro rfl
  exact hc (by decide)

theorem PlainName.notMem_bare {raw name : List Char} (h : PlainName raw name) :
    ∀ c ∈ bare raw, c ∉ reserved := by
  induction h with
  | nil => exact nofun
  | escaped c _ ih => exact ih
  | plain hc _ ih =>
    rw [bare_cons (ne_of_notMem_reserved hc)]
    rintro d (_ | ⟨_, hd⟩)
    · exact hc
    · exact ih d hd

section Steps

variable {raw rest rest' : List Char}

/-- Of a name behind a dot only what stands outside escapes is looked at. -/
theorem isClosed_dotted {name : List Char} (h : PlainName raw name)
    (hrest : ∀ depth, isClosed depth none rest = isClosed depth none rest') (depth : Nat) :
    isClosed depth none (raw ++ rest) = isClosed depth none (bare raw ++ rest') := by
  induction h generalizing depth with
  | nil => exact hrest depth
  | escaped c _ ih =>
    rw [List.cons_append, List.cons_append, isClosed.eq_3, bare, ih]
  | @plain c raw name hc _ ih =>
    have hguard : c ∉ guards := fun hmem => hc (mem_reserved_of_mem_guards hmem)
    rw [bare_cons (ne_of_notMem_reserved hc), List.cons_append, List.cons_append,
      isClosed_unguarded hguard, isClosed_unguarded hguard, ih, ih, ih]

theorem isClosed_quotedName {quote : Char} (hquote : quote ≠ '\\') {name : List Char}
    (h : QuotedName quote raw name) (depth : Nat) :
    isClosed depth (some quote) (raw ++ quote :: rest) = isClosed depth none rest := by
  induction h with
  | nil => rw [List.nil_append, isClosed_quoted hquote, if_pos rfl]
  | escaped c _ ih => rw [List.cons_append, List.cons_append, isClosed.eq_3, ih]
  | plain hq hb _ ih => rw [List.cons_append, isClosed_quoted hb, if_neg hq, ih]

theorem isClosed_index {content : List Char}
    (h : ∀ c ∈ content, c ∉ '(' :: ')' :: guards) (depth : Nat) :
    isClosed depth none (content ++ rest) = isClosed depth none rest := by
  induction content with
  | nil => rfl
  | cons c content ih =>
    have hc := h c List.mem_cons_self
    simp only [List.mem_cons, not_or] at hc
    rw [List.cons_append, isClosed_unguarded hc.2.2, if_neg hc.1, if_neg hc.2.1]
    exact ih fun d hd => h d (List.mem_cons_of_mem _ hd)

/-- A step in brackets closes all that it opens. -/
theorem isClosed_bracketed {s : Step} (h : Bracketed raw s) (depth : Nat) :
    isClosed depth none ('[' :: (raw ++ rest)) = isClosed depth none rest := by
  have hopen : ∀ cs, isClosed depth none ('[' :: cs) = isClosed (depth + 1) none cs :=
    fun cs => by rw [isClosed_bare (by decide), if_neg (by decide), if_pos (by decide)]
  have hclose : isClosed (depth + 1) none (']' :: rest) = isClosed depth none rest := by
    rw [isClosed_bare (by decide), if_neg (by decide), if_neg (by decide), if_pos (by decide)]
    simp
  rw [hopen]
  cases h with
  | @field quote raw name hquote h =>
    have hb : quote ≠ '\\' := by rcases hquote with rfl | rfl <;> decide
    have hraw : quote :: raw ++ [quote, ']'] ++ rest = quote :: (raw ++ quote :: ']' :: rest) := by
      simp
    rw [hraw, isClosed_bare hb, if_pos hquote, isClosed_quotedName hb h, hclose]
  | @index before cs after i hb h ha =>
    have hplain : ∀ c ∈ before ++ cs ++ after, c ∉ '(' :: ')' :: guards := by
      intro c hc hmem
      have hodd : Text.isBlank c = false ∧ c.isDigit = false ∧ c ≠ '+' := by
        simp only [guards, List.mem_cons, List.not_mem_nil, or_false] at hmem
        rcases hmem with rfl | rfl | rfl | rfl | rfl | rfl | rfl <;> decide
      exact h.notMem_padded hb ha hodd.1 hodd.2.1 hodd.2.2 hc
    rw [List.append_assoc, isClosed_index hplain, List.singleton_append, hclose]

end Steps

theorem isClosed_iff_paired {cs : List Char} {raws : List (List Char)} (h : DottedNames cs raws) :
    isClosed 0 none cs = true ↔ Paired (raws.flatMap bare) := by
  have hnames : ∀ depth, isClosed depth none cs = isClosed depth none (raws.flatMap bare) := by
    induction h with
    | nil => exact fun _ => rfl
    | dotted h _ ih =>
      intro depth
      rw [isClosed_unguarded (by decide), if_neg (by decide), if_neg (by decide),
        List.flatMap_cons, isClosed_dotted h ih]
    | bracketed h _ ih =>
      intro depth
      rw [isClosed_bracketed h, ih]
  have hplain : ∀ c ∈ raws.flatMap bare, c ∉ guards := by
    clear hnames
    induction h with
    | nil => exact nofun
    | dotted h _ ih =>
      intro c hc
      rcases List.mem_append.1 (List.flatMap_cons ▸ hc) with hc | hc
      · exact fun hmem => h.notMem_bare c hc (mem_reserved_of_mem_guards hmem)
      · exact ih c hc
    | bracketed _ _ ih => exact ih
  rw [hnames, isClosed_iff_closes hplain, Paired]

/-- **A reference path is balanced exactly if the parentheses in its names pair up**, those behind a
backslash not counted, unless it is so long that the count can wrap around. -/
theorem isBalanced_iff_paired {cs : List Char} {raws : List (List Char)} (h : DottedNames cs raws)
    (hshort : cs.length < countLimit) :
    isBalanced 0 none cs = true ↔ Paired (raws.flatMap bare) := by
  rw [isBalanced_zero hshort, isClosed_iff_paired h]

end StatesLang.Path
