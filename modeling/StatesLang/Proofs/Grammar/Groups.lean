import StatesLang.Proofs.Grammar.Balance

/-!
# Groups of lenient paths

The lenient test counts brackets and parentheses together, so that it only sees that each group
closes, and not what closes it.

* `Path.Grouped`: a text and the groups in it, each by what opens and what closes it.
* `Path.WellGrouped`: every group is closed by its own kind.
* `Path.Grouped.unique`: a text has its groups in one way only.
* `Path.isBalanced_iff_grouped`: balanced texts are those whose groups close, by either kind.
* **`Path.isLenient_exact_iff`**: the test passes just the well grouped texts from the root, except
  that it passes groups that are closed by the other kind.
* `Path.isLenient_opened_iff`: in very long texts the count wraps around.
-/

namespace StatesLang.Path

/-! ## Groups -/

/-- What opens a group. -/
def openings : List Char :=
  ['[', '(']

/-- What closes a group. -/
def closings : List Char :=
  [']', ')']

theorem mem_openings {o : Char} : o ∈ openings ↔ o = '[' ∨ o = '(' := by
  simp [openings]

theorem mem_closings {c : Char} : c ∈ closings ↔ c = ']' ∨ c = ')' := by
  simp [closings]

/-- A text with the groups in it, each by what opens and what closes it, in the order in which they
close. Escapes are passed over with the character behind them, quoted texts up to the same quote. -/
inductive Grouped : List Char → List (Char × Char) → Prop
  | nil : Grouped [] []
  | escaped {rest gs} (c : Char) (h : Grouped rest gs) : Grouped ('\\' :: c :: rest) gs
  | quoted {quote inner name rest gs} (hquote : quote = '\'' ∨ quote = '"')
      (hi : QuotedName quote inner name) (h : Grouped rest gs) :
      Grouped (quote :: (inner ++ quote :: rest)) gs
  | group {o inner gs c rest gs'} (ho : o ∈ openings) (hi : Grouped inner gs) (hc : c ∈ closings)
      (h : Grouped rest gs') : Grouped (o :: (inner ++ c :: rest)) (gs ++ (o, c) :: gs')
  | plain {c rest gs} (hc : c ∉ '(' :: ')' :: guards) (h : Grouped rest gs) : Grouped (c :: rest) gs

/-- A group that is closed by its own kind. -/
def IsPair (g : Char × Char) : Prop :=
  g = ('[', ']') ∨ g = ('(', ')')

instance (g : Char × Char) : Decidable (IsPair g) :=
  inferInstanceAs (Decidable (_ ∨ _))

/-- Quotes close, no escape is left open at the end, and brackets and parentheses are nested, each
closed by its own kind. -/
def WellGrouped (cs : List Char) : Prop :=
  ∃ gs, Grouped cs gs ∧ ∀ g ∈ gs, IsPair g

/-! ## A text has its groups in one way -/

section Inversion

variable {c quote o : Char} {cs : List Char} {gs : List (Char × Char)}

theorem Grouped.of_escape (h : Grouped ('\\' :: cs) gs) :
    ∃ c rest, cs = c :: rest ∧ Grouped rest gs := by
  cases h with
  | escaped c h => exact ⟨c, _, rfl, h⟩
  | quoted hquote => exact absurd hquote (by decide)
  | group ho => exact absurd ho (by decide)
  | plain hc => exact absurd hc (by decide)

theorem Grouped.of_quote (hquote : quote = '\'' ∨ quote = '"') (h : Grouped (quote :: cs) gs) :
    ∃ inner name rest, cs = inner ++ quote :: rest ∧ QuotedName quote inner name ∧
      Grouped rest gs := by
  cases h with
  | escaped => exact absurd hquote (by decide)
  | quoted _ hi h => exact ⟨_, _, _, rfl, hi, h⟩
  | group ho => rcases hquote with rfl | rfl <;> exact absurd ho (by decide)
  | plain hc => rcases hquote with rfl | rfl <;> exact absurd hc (by decide)

theorem Grouped.of_opening (ho : o ∈ openings) (h : Grouped (o :: cs) gs) :
    ∃ inner gs₁ c rest gs₂, cs = inner ++ c :: rest ∧ gs = gs₁ ++ (o, c) :: gs₂ ∧
      Grouped inner gs₁ ∧ c ∈ closings ∧ Grouped rest gs₂ := by
  cases h with
  | escaped => exact absurd ho (by decide)
  | quoted hquote => rcases hquote with rfl | rfl <;> exact absurd ho (by decide)
  | group _ hi hc h => exact ⟨_, _, _, _, _, rfl, rfl, hi, hc, h⟩
  | plain hc =>
    rcases mem_openings.1 ho with rfl | rfl <;> exact absurd hc (by decide)

theorem Grouped.of_plain (hc : c ∉ '(' :: ')' :: guards) (h : Grouped (c :: cs) gs) :
    Grouped cs gs := by
  cases h with
  | escaped => exact absurd hc (by decide)
  | quoted hquote => rcases hquote with rfl | rfl <;> exact absurd hc (by decide)
  | group ho =>
    rcases mem_openings.1 ho with rfl | rfl <;> exact absurd hc (by decide)
  | plain _ h => exact h

theorem Grouped.notMem_closings (h : Grouped (c :: cs) gs) : c ∉ closings := by
  cases h with
  | escaped => decide
  | quoted hquote => rcases hquote with rfl | rfl <;> decide
  | group ho =>
    rcases mem_openings.1 ho with rfl | rfl <;> decide
  | plain hc =>
    simp only [guards, List.mem_cons, List.not_mem_nil, or_false, not_or] at hc
    simp [closings, hc]

end Inversion

/-- The text ends here, or a group closes. -/
def AtClosing (cs : List Char) : Prop :=
  ∀ c ∈ cs.head?, c ∈ closings

theorem atClosing_nil : AtClosing [] :=
  nofun

theorem atClosing_cons {c : Char} {cs : List Char} : AtClosing (c :: cs) ↔ c ∈ closings := by
  simp [AtClosing]

theorem QuotedName.unique {quote : Char} (hquote : quote = '\'' ∨ quote = '"')
    {raw raw' name name' rest rest' : List Char} (h : QuotedName quote raw name)
    (h' : QuotedName quote raw' name') (he : raw ++ quote :: rest = raw' ++ quote :: rest') :
    raw = raw' ∧ rest = rest' := by
  have hb : quote ≠ '\\' := by rcases hquote with rfl | rfl <;> decide
  obtain ⟨position, hr⟩ := quotedName_complete hb h rest 0 0
  obtain ⟨position', hr'⟩ := quotedName_complete hb h' rest' 0 0
  rw [he, hr'] at hr
  cases hr
  exact ⟨List.append_cancel_right he, rfl⟩

/-- Of two texts of groups before the end of a group the second starts like the first. -/
theorem AtClosing.exists_cons {c : Char} {cs cs' rest rest' : List Char} {gs : List (Char × Char)}
    (hrest' : AtClosing rest') (h : Grouped (c :: cs) gs)
    (he : c :: cs ++ rest = cs' ++ rest') :
    ∃ cs'', cs' = c :: cs'' ∧ cs ++ rest = cs'' ++ rest' := by
  cases cs' with
  | nil =>
    rw [List.nil_append] at he
    rw [← he] at hrest'
    exact absurd (atClosing_cons.1 hrest') h.notMem_closings
  | cons d cs' =>
    obtain ⟨rfl, htail⟩ := List.cons.inj he
    exact ⟨cs', rfl, htail⟩

/-- **A text has its groups in one way only.** -/
theorem Grouped.unique {cs cs' rest rest' : List Char} {gs gs' : List (Char × Char)}
    (h : Grouped cs gs) (h' : Grouped cs' gs') (hrest : AtClosing rest) (hrest' : AtClosing rest')
    (he : cs ++ rest = cs' ++ rest') : cs = cs' ∧ gs = gs' := by
  induction h generalizing cs' gs' rest rest' with
  | nil =>
    cases cs' with
    | nil =>
      cases h'
      exact ⟨rfl, rfl⟩
    | cons d cs' =>
      rw [List.nil_append] at he
      rw [he] at hrest
      exact absurd (atClosing_cons.1 hrest) h'.notMem_closings
  | escaped c h ih =>
    obtain ⟨cs', rfl, hr⟩ := hrest'.exists_cons (.escaped c h) he
    obtain ⟨c', cs', rfl, hs⟩ := h'.of_escape
    obtain ⟨rfl, ht⟩ := List.cons.inj hr
    obtain ⟨rfl, rfl⟩ := ih hs hrest hrest' ht
    exact ⟨rfl, rfl⟩
  | quoted hquote hi h ih =>
    obtain ⟨cs', rfl, hr⟩ := hrest'.exists_cons (.quoted hquote hi h) he
    obtain ⟨inner', name', cs', rfl, hi', hs⟩ := h'.of_quote hquote
    rw [List.append_assoc, List.append_assoc] at hr
    obtain ⟨rfl, ht⟩ := hi.unique hquote hi' hr
    obtain ⟨rfl, rfl⟩ := ih hs hrest hrest' ht
    exact ⟨rfl, rfl⟩
  | group ho hi hc h ihi ih =>
    obtain ⟨cs', rfl, hr⟩ := hrest'.exists_cons (.group ho hi hc h) he
    obtain ⟨inner', gs₁, c', cs', gs₂, rfl, rfl, hi', hc', hs⟩ := h'.of_opening ho
    rw [List.append_assoc, List.append_assoc] at hr
    obtain ⟨rfl, rfl⟩ := ihi hi' (atClosing_cons.2 hc) (atClosing_cons.2 hc') hr
    obtain ⟨rfl, ht⟩ := List.cons.inj (List.append_cancel_left hr)
    obtain ⟨rfl, rfl⟩ := ih hs hrest hrest' ht
    exact ⟨rfl, rfl⟩
  | plain hc h ih =>
    obtain ⟨cs', rfl, hr⟩ := hrest'.exists_cons (.plain hc h) he
    obtain ⟨rfl, rfl⟩ := ih (h'.of_plain hc) hrest hrest' hr
    exact ⟨rfl, rfl⟩

/-! ## Balanced texts -/

/-- What follows behind so many open groups: for each of them what it holds and what closes it. -/
def Behind : Nat → List Char → Prop
  | 0, cs => ∃ gs, Grouped cs gs
  | n + 1, cs => ∃ inner gs c rest, Grouped inner gs ∧ c ∈ closings ∧ Behind n rest ∧
      cs = inner ++ c :: rest

/-- What follows where a quote may be open too. -/
def BehindQuote (n : Nat) (quote : Option Char) (cs : List Char) : Prop :=
  match quote with
  | none => Behind n cs
  | some quote => ∃ inner name rest, QuotedName quote inner name ∧ Behind n rest ∧
      cs = inner ++ quote :: rest

/-- What can stand before groups can stand before the rest of an open group. -/
theorem Behind.prepend {n : Nat} {cs : List Char} (front : List Char)
    (hfront : ∀ cs gs, Grouped cs gs → ∃ gs', Grouped (front ++ cs) gs') (h : Behind n cs) :
    Behind n (front ++ cs) := by
  cases n with
  | zero =>
    obtain ⟨gs, h⟩ := h
    exact hfront cs gs h
  | succ n =>
    obtain ⟨inner, gs, c, rest, hi, hc, h, rfl⟩ := h
    obtain ⟨gs', hi'⟩ := hfront inner gs hi
    exact ⟨front ++ inner, gs', c, rest, hi', hc, h, by rw [List.append_assoc]⟩

theorem Behind.opening {n : Nat} {o : Char} {cs : List Char} (ho : o ∈ openings)
    (h : Behind (n + 1) cs) : Behind n (o :: cs) := by
  obtain ⟨inner, gs, c, rest, hi, hc, h, rfl⟩ := h
  have hgroup := h.prepend (o :: inner ++ [c]) fun cs gs' h => by
    refine ⟨gs ++ (o, c) :: gs', ?_⟩
    simpa using Grouped.group ho hi hc h
  simpa using hgroup

theorem BehindQuote.quoted {n : Nat} {quote : Char} (hquote : quote = '\'' ∨ quote = '"')
    {cs : List Char} (h : BehindQuote n (some quote) cs) : Behind n (quote :: cs) := by
  obtain ⟨inner, name, rest, hi, h, rfl⟩ := h
  have hquoted := h.prepend (quote :: inner ++ [quote]) fun cs gs h => by
    refine ⟨gs, ?_⟩
    simpa using Grouped.quoted hquote hi h
  simpa using hquoted

theorem BehindQuote.escaped {n : Nat} {quote : Option Char} {cs : List Char}
    (h : BehindQuote n quote cs) (c : Char) : BehindQuote n quote ('\\' :: c :: cs) := by
  cases quote with
  | none => exact Behind.prepend ['\\', c] (fun cs gs h => ⟨gs, .escaped c h⟩) h
  | some quote =>
    obtain ⟨inner, name, rest, hi, h, rfl⟩ := h
    exact ⟨'\\' :: c :: inner, c :: name, rest, .escaped c hi, h, rfl⟩

theorem ne_of_last {c : Char} {rest : List Char} (hone : c = '\\' → rest = [] → False)
    (htwo : ∀ d ds, c = '\\' → rest = d :: ds → False) : c ≠ '\\' := by
  intro hc
  cases rest with
  | nil => exact hone hc rfl
  | cons d ds => exact htwo d ds hc rfl

theorem isClosed_sound {n : Nat} {quote : Option Char} {cs : List Char}
    (h : isClosed n quote cs = true) : BehindQuote n quote cs := by
  fun_induction isClosed n quote cs with
  | case1 n quote =>
    rw [Bool.and_eq_true, beq_iff_eq, Option.isNone_iff_eq_none] at h
    obtain ⟨rfl, rfl⟩ := h
    exact ⟨[], .nil⟩
  | case2 => cases h
  | case3 n quote c rest ih => exact (ih h).escaped c
  | case4 n c rest hone htwo quote ih =>
    split_ifs at ih with hc
    · rw [if_pos hc] at h
      exact ⟨[], [], rest, .nil, ih h, by rw [hc]; rfl⟩
    · rw [if_neg hc] at h
      obtain ⟨inner, name, rest, hi, hrest, rfl⟩ := ih h
      exact ⟨c :: inner, c :: name, rest, .plain hc (ne_of_last hone htwo) hi, hrest, rfl⟩
  | case5 n c rest _ _ hquote ih => exact (ih h).quoted hquote
  | case6 n c rest _ _ _ ho ih => exact (ih h).opening (mem_openings.2 ho)
  | case7 => cases h
  | case8 c rest _ _ _ _ hc n ih =>
    exact ⟨[], [], c, rest, .nil, mem_closings.2 hc, ih h, rfl⟩
  | case9 n c rest hone htwo hquote ho hc ih =>
    have hb := ne_of_last hone htwo
    refine Behind.prepend [c] (fun cs gs h => ⟨gs, .plain ?_ h⟩) (ih h)
    simp only [not_or] at hquote ho hc
    simp [guards, hb, hquote, ho, hc]

theorem Grouped.isClosed_append {cs : List Char} {gs : List (Char × Char)} (h : Grouped cs gs)
    (depth : Nat) (more : List Char) :
    isClosed depth none (cs ++ more) = isClosed depth none more := by
  induction h generalizing depth more with
  | nil => rfl
  | escaped c _ ih => rw [List.cons_append, List.cons_append, isClosed.eq_3, ih]
  | @quoted quote inner name rest gs hquote hi _ ih =>
    have hb : quote ≠ '\\' := by rcases hquote with rfl | rfl <;> decide
    rw [List.cons_append, isClosed_bare hb, if_pos hquote, List.append_assoc, List.cons_append,
      isClosed_quotedName hb hi, ih]
  | @group o inner gs c rest gs' ho _ hc _ ihi ih =>
    have hopen : ∀ cs, isClosed depth none (o :: cs) = isClosed (depth + 1) none cs := by
      rcases mem_openings.1 ho with rfl | rfl <;> exact fun cs => isClosed_bare (by decide)
    have hclose : ∀ cs, isClosed (depth + 1) none (c :: cs) = isClosed depth none cs := by
      rcases mem_closings.1 hc with rfl | rfl <;>
        exact fun cs => (isClosed_bare (by decide)).trans (by simp)
    rw [List.cons_append, hopen, List.append_assoc, ihi, List.cons_append, hclose, ih]
  | @plain c rest gs hc _ ih =>
    simp only [List.mem_cons, not_or] at hc
    rw [List.cons_append, isClosed_unguarded (by simpa using hc.2.2), if_neg hc.1,
      if_neg hc.2.1, ih]

theorem isClosed_iff_grouped {cs : List Char} :
    isClosed 0 none cs = true ↔ ∃ gs, Grouped cs gs := by
  constructor
  · exact isClosed_sound
  · rintro ⟨gs, h⟩
    rw [← List.append_nil cs, h.isClosed_append]
    rfl

/-- **Balanced texts are those whose groups close, by either kind**, unless the count can wrap
around. -/
theorem isBalanced_iff_grouped {cs : List Char} (hshort : cs.length < countLimit) :
    isBalanced 0 none cs = true ↔ ∃ gs, Grouped cs gs := by
  rw [isBalanced_zero hshort, isClosed_iff_grouped]

/-- **What passes as a path but is no reference path** starts at the root, and in it all quotes,
brackets and parentheses close. So every well grouped text from the root passes, and only these do
exactly if no group is closed by the other kind. The text is too short for the count to wrap
around. -/
theorem isLenient_exact_iff {text : String} (h : isPath text = false)
    (hshort : text.length < countLimit) :
    (isLenient text = true ↔ text.toList.head? = some '$' ∧ ∃ gs, Grouped text.toList gs) ∧
      (text.toList.head? = some '$' ∧ WellGrouped text.toList → isLenient text = true) ∧
      ((isLenient text = true → text.toList.head? = some '$' ∧ WellGrouped text.toList) ↔
        (text.toList.head? = some '$' →
          ∀ gs, Grouped text.toList gs → ∀ g ∈ gs, IsPair g)) := by
  have hlenient :
      isLenient text = true ↔ text.toList.head? = some '$' ∧ ∃ gs, Grouped text.toList gs := by
    rw [isLenient, h, Bool.false_or, Bool.and_eq_true, beq_iff_eq, isBalanced_iff_grouped hshort]
  refine ⟨hlenient, ?_, fun hexact hroot gs hgs => ?_, fun hpairs hpass => ?_⟩
  · rintro ⟨hroot, gs, hgs, -⟩
    exact hlenient.2 ⟨hroot, gs, hgs⟩
  · obtain ⟨-, gs', hgs', hpair⟩ := hexact (hlenient.2 ⟨hroot, gs, hgs⟩)
    obtain ⟨-, rfl⟩ := hgs.unique hgs' atClosing_nil atClosing_nil rfl
    exact hpair
  · obtain ⟨hroot, gs, hgs⟩ := hlenient.1 hpass
    exact ⟨hroot, gs, hgs, hpairs hroot gs hgs⟩

/-- A parenthesis in quotes closes nothing. -/
theorem quotedParenthesis_exact :
    isPath "$.a[(')')]" = false ∧ isLenient "$.a[(')')]" = true ∧
      WellGrouped "$.a[(')')]".toList := by
  have hpath : isPath "$.a[(')')]" = false := by decide +kernel
  have hquote : Grouped ['\'', ')', '\''] [] :=
    .quoted (.inl rfl) (.plain (by decide) (by decide) .nil) .nil
  have hgroups : Grouped "$.a[(')')]".toList [('(', ')'), ('[', ']')] :=
    .plain (by decide) (.plain (by decide) (.plain (by decide)
      (.group (by decide) (.group (by decide) hquote (by decide) .nil) (by decide) .nil)))
  have hwell : WellGrouped "$.a[(')')]".toList := ⟨_, hgroups, by decide⟩
  exact ⟨hpath, (isLenient_exact_iff hpath (by decide)).2.1 ⟨rfl, hwell⟩, hwell⟩

/-- A bracket that a parenthesis closes passes. -/
theorem crossed_passes :
    isPath "$.a[*)" = false ∧ isLenient "$.a[*)" = true ∧ ¬ WellGrouped "$.a[*)".toList := by
  have hgroups : Grouped "$.a[*)".toList [('[', ')')] :=
    .plain (by decide) (.plain (by decide) (.plain (by decide)
      (.group (by decide) (.plain (by decide) .nil) (by decide) .nil)))
  refine ⟨by decide +kernel, by decide +kernel, ?_⟩
  rintro ⟨gs, hgs, hpair⟩
  obtain ⟨-, rfl⟩ := hgroups.unique hgs atClosing_nil atClosing_nil rfl
  exact absurd hpair (by decide)

/-! ## Where the count wraps around -/

theorem isBalanced_replicate (n : Nat) (depth : Int32) :
    isBalanced depth none (List.replicate n '[') = (depth + Int32.ofNat n == 0) := by
  induction n generalizing depth with
  | zero => simp [isBalanced]
  | succ n ih =>
    rw [List.replicate_succ, isBalanced.eq_5 _ _ _ (by simp) (by simp), if_neg (by decide),
      if_pos (by decide), ih, Int32.add_assoc, Int32.ofNat_add, Int32.add_comm 1]
    rfl

theorem not_stepsText_replicate (n : Nat) (ss : List Step) :
    ¬ StepsText (List.replicate (n + 1) '[') ss := by
  intro h
  generalize hcs : List.replicate (n + 1) '[' = cs at h
  have honly : ∀ c ∈ cs, c = '[' := fun c hc => List.eq_of_mem_replicate (hcs ▸ hc)
  cases h with
  | nil => cases hcs
  | cons h _ =>
    cases h with
    | dotted => exact absurd (honly '.' List.mem_cons_self) (by decide)
    | bracketed h =>
      have hclose : ']' = '[' := honly _ (by cases h <;> simp)
      exact absurd hclose (by decide)

/-- **Brackets that only open pass if there are so many of them that the count is back at zero.** -/
theorem isLenient_opened_iff (n : Nat) :
    isLenient (String.ofList ('$' :: List.replicate n '[')) = true ↔ Int32.size ∣ n := by
  cases n with
  | zero => exact iff_of_true (by decide +kernel) (Nat.dvd_zero _)
  | succ n =>
    have hpath : isPath (String.ofList ('$' :: List.replicate (n + 1) '[')) = false := by
      refine isPath_eq_false.2 fun p hp => ?_
      obtain ⟨-, rest, hrest, -, hsteps⟩ := parse_eq_ok.1 hp
      rw [String.toList_ofList] at hrest
      cases hrest
      exact not_stepsText_replicate n _ hsteps
    rw [isLenient, hpath, String.toList_ofList, isBalanced_root, isBalanced_replicate,
      Int32.zero_add, List.head?_cons, beq_self_eq_true, Bool.false_or, Bool.true_and, beq_iff_eq,
      ← Int32.toInt_inj, Int32.toInt_ofNat', ← Int.natCast_dvd_natCast, Int.dvd_iff_bmod_eq_zero]
    rfl

end StatesLang.Path
