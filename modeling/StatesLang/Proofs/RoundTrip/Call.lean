import Mathlib
import StatesLang.Proofs.Grammar.Call
import StatesLang.Proofs.RoundTrip.Double.Text

/-!
# Calls read back

* `Call.Verbatim`: a call whose names and paths need no escape and whose decimals are finite.
* `Call.CallText.spelled`: the text of such a call spells it.
* `Call.CallText.verbatim`: only then does the text of a call spell it.
* **`Call.reads_back_iff`**: a call that was read is read again from its text exactly if it is
  verbatim.
-/

namespace StatesLang.Call

mutual

/-- A call whose names and paths are written without escapes, and whose decimals are finite. -/
def Verbatim : Call → Prop
  | ⟨name, params⟩ => Unescaped name.toList ∧ ParamsVerbatim params

/-- The same for a parameter. -/
def Param.Verbatim : Param → Prop
  | .path text => Unescaped text.toList
  | .decimal x => ∃ y, x = .finite y
  | .call c => Call.Verbatim c
  | .null | .boolean _ | .string _ | .int _ => True

/-- The same for parameters. -/
def ParamsVerbatim : List Param → Prop
  | [] => True
  | p :: ps => p.Verbatim ∧ ParamsVerbatim ps

end

/-! ## The text of a parameter -/

theorem quotedBody_escape (s : List Char) : QuotedBody (s.flatMap escapeChar) s := by
  induction s with
  | nil => exact .nil
  | cons c s ih =>
    rw [List.flatMap_cons]
    unfold escapeChar
    split
    · next hc => exact .unescaped hc.symm ih
    · next hc => exact .plain (fun h => hc h.symm) ih

theorem spells_quote (s : String) : Spells (quote s) [.text s.toList] := by
  have h := Spells.text (quotedBody_escape s.toList) .nil
  rwa [← List.cons_append] at h

theorem plain_of_decimalChar {c : Char} (h : Literal.IsDecimalChar c) :
    isDelimiter c = false ∧ c ∉ ['\\', '\'', '['] := by
  rcases h with hd | hc
  · have hne : ∀ d, d.isDigit = false → c ≠ d := by
      rintro d hno rfl
      rw [hd] at hno
      cases hno
    have hblank := Text.isBlank_of_isDigit hd
    refine ⟨isDelimiter_eq_false.2 ⟨hblank, hne _ rfl, hne _ rfl, hne _ rfl⟩, ?_⟩
    simp [hne '\\' rfl, hne '\'' rfl, hne '[' rfl]
  · simp only [List.mem_cons, List.not_mem_nil, or_false] at hc
    rcases hc with rfl | rfl | rfl | rfl | rfl <;> decide

theorem LiteralText.ne_nil {w : List Char} {p : Param} (h : LiteralText w p) : w ≠ [] := by
  cases h with
  | int h => rintro rfl; cases h
  | decimal _ h => rintro rfl; cases h
  | _ => simp

/-- The text of a literal that is verbatim is a word that says the literal. -/
theorem LiteralText.render {w : List Char} {p : Param} (h : LiteralText w p) (hv : p.Verbatim) :
    LiteralText p.renderChars p ∧ Unescaped p.renderChars := by
  cases h with
  | null => exact ⟨.null, .of_plain (by decide)⟩
  | true => exact ⟨.true, .of_plain (by decide)⟩
  | false => exact ⟨.false, .of_plain (by decide)⟩
  | path rest =>
    rw [Param.renderChars, String.toList_ofList]
    rw [Param.Verbatim, String.toList_ofList] at hv
    exact ⟨.path rest, hv⟩
  | @int w n _ =>
    have hread := Literal.int64?_toString n
    exact ⟨.int hread, .of_plain fun c hc => plain_of_decimalChar (Literal.int64?_chars hread c hc)⟩
  | decimal _ _ =>
    obtain ⟨y, rfl⟩ := hv
    have hread := Literal.decimal?_render .expression y
    exact ⟨.decimal (Literal.int64?_render rfl y) hread,
      .of_plain fun c hc => plain_of_decimalChar ((Literal.decimal?_chars hread).2 c hc)⟩

theorem Spells.of_unescaped {w : List Char} (h : Unescaped w) (hne : w ≠ []) :
    Spells w [.word w] := by
  have hs := Spells.word h.word hne atDelimiter_nil .nil
  rwa [List.append_nil] at hs

theorem renderParams_cons (p q : Param) (ps : List Param) :
    renderParams (p :: q :: ps) = p.renderChars ++ ',' :: ' ' :: renderParams (q :: ps) := by
  rw [renderParams, renderOtherParams, renderParams]
  simp

theorem ParamsText.exists_cons {ks : List Symbol} {ps : List Param} (h : ParamsText ks ps) :
    ∃ p ps', ps = p :: ps' := by
  cases h with
  | one => exact ⟨_, _, rfl⟩
  | more => exact ⟨_, _, rfl⟩

/-! ## Verbatim calls read back -/

/-- The words among symbols are not empty. -/
def WordsNonempty (ks : List Symbol) : Prop :=
  ∀ w, .word w ∈ ks → w ≠ []

theorem WordsNonempty.mono {ks ks' : List Symbol} (h : WordsNonempty ks) (hsub : ks' ⊆ ks) :
    WordsNonempty ks' :=
  fun w hw => h w (hsub hw)

theorem Word.ne_nil {raw w : List Char} (h : Word raw w) (hne : raw ≠ []) : w ≠ [] := by
  cases h with
  | nil => exact absurd rfl hne
  | _ => simp

theorem Spells.wordsNonempty {cs : List Char} {ks : List Symbol} (h : Spells cs ks) :
    WordsNonempty ks := by
  induction h with
  | nil => exact nofun
  | blank _ _ ih => exact ih
  | word hw hne _ _ ih =>
    rintro v (_ | ⟨_, hv⟩)
    · exact hw.ne_nil hne
    · exact ih v hv
  | _ =>
    rename_i ih
    rintro v (_ | ⟨_, hv⟩)
    exact ih v hv

mutual

theorem CallText.spelled {ks : List Symbol} {c : Call} (h : CallText ks c)
    (hne : WordsNonempty ks) (hv : c.Verbatim) :
    ∃ ks', CallText ks' c ∧ Spells c.renderChars ks' := by
  have hopen : ∀ cs, AtDelimiter ('(' :: cs) := fun cs => atDelimiter_cons.2 (by decide)
  have hclose : AtDelimiter [')'] := atDelimiter_cons.2 (by decide)
  cases h with
  | bare name =>
    rw [Verbatim, String.toList_ofList] at hv
    refine ⟨_, .bare name, ?_⟩
    rw [renderChars, String.toList_ofList, renderParams, List.append_assoc, List.cons_append]
    exact .word hv.1.word (hne name List.mem_cons_self) (hopen _) (.opening (.closing .nil))
  | @applied name ks ps h =>
    rw [Verbatim, String.toList_ofList] at hv
    obtain ⟨ks', hks', hs⟩ := h.spelled (hne.mono fun k hk => by simp [hk]) hv.2
    refine ⟨_, .applied name hks', ?_⟩
    rw [renderChars, String.toList_ofList, List.append_assoc, List.cons_append]
    exact .word hv.1.word (hne name List.mem_cons_self) (hopen _)
      (.opening ((spells_append_iff hs (.inl hclose)).2 ⟨_, rfl, .closing .nil⟩))

theorem ParamsText.spelled {ks : List Symbol} {ps : List Param} (h : ParamsText ks ps)
    (hne : WordsNonempty ks) (hv : ParamsVerbatim ps) :
    ∃ ks', ParamsText ks' ps ∧ Spells (renderParams ps) ks' := by
  cases h with
  | one h =>
    obtain ⟨ks', hks', hs⟩ := h.spelled hne hv.1
    refine ⟨ks', .one hks', ?_⟩
    rwa [renderParams, renderOtherParams, List.append_nil]
  | @more ks p ks₂ ps h hs =>
    obtain ⟨ks', hks', hspells⟩ := h.spelled (hne.mono (by simp)) hv.1
    obtain ⟨ks₂', hks₂', hspells₂⟩ := hs.spelled (hne.mono (by simp)) hv.2
    obtain ⟨q, ps, rfl⟩ := hs.exists_cons
    refine ⟨_, .more hks' hks₂', ?_⟩
    rw [renderParams_cons]
    exact (spells_append_iff hspells (.inl (atDelimiter_cons.2 (by decide)))).2
      ⟨_, rfl, .comma (.blank (by decide) hspells₂)⟩

theorem ParamText.spelled {ks : List Symbol} {p : Param} (h : ParamText ks p)
    (hne : WordsNonempty ks) (hv : p.Verbatim) :
    ∃ ks', ParamText ks' p ∧ Spells p.renderChars ks' := by
  cases h with
  | text s =>
    have hs := spells_quote (String.ofList s)
    rw [String.toList_ofList] at hs
    exact ⟨_, .text s, hs⟩
  | literal h =>
    obtain ⟨hrender, hu⟩ := h.render hv
    exact ⟨_, .literal hrender, .of_unescaped hu hrender.ne_nil⟩
  | call h =>
    obtain ⟨ks', hks', hs⟩ := h.spelled hne hv
    exact ⟨ks', .call hks', hs⟩

end

/-! ## Only verbatim calls do -/

/-- A word that a text spells by itself, up to some character, needs no escape. -/
theorem unescaped_of_spells {w more : List Char} {d : Char} {ks : List Symbol}
    (h : Spells (w ++ d :: more) (.word w :: ks)) (hd : d = '(' ∨ d = ',' ∨ d = ')') :
    Unescaped w ∧ Spells (d :: more) ks := by
  obtain ⟨before, raw, rest, he, hbefore, hw, hs⟩ := exists_word_of_spells h
  have hnot : d ∉ before := by
    intro hmem
    have hblank := hbefore d hmem
    rcases hd with rfl | rfl | rfl <;> exact absurd hblank (by decide)
  obtain ⟨t, rfl, hrest⟩ : ∃ t, w = before ++ t ∧ raw ++ rest = t ++ d :: more := by
    rcases List.append_eq_append_iff.1 he with ⟨t, ht, hrest⟩ | h
    · cases t with
      | nil => exact ⟨[], by rw [ht, List.append_nil, List.append_nil], hrest.symm⟩
      | cons c t =>
        obtain ⟨rfl, -⟩ := List.cons.inj hrest
        exact absurd (by rw [ht]; simp) hnot
    · exact h
  obtain ⟨rfl, rfl⟩ := hw.eq_of_append hrest (by rcases hd with rfl | rfl | rfl <;> decide) hnot
  rw [List.append_cancel_left hrest] at hs
  exact ⟨hw.unescaped rfl, hs⟩

theorem LiteralText.verbatim {w : List Char} {p : Param} (h : LiteralText w p)
    {more : List Char} {d : Char} (hd : d = ',' ∨ d = ')') {ks : List Symbol}
    (hs : Spells (p.renderChars ++ d :: more) (.word w :: ks)) :
    p.Verbatim ∧ Spells (d :: more) ks := by
  have hplain : Unescaped p.renderChars → p.renderChars ≠ [] →
      w = p.renderChars ∧ Spells (d :: more) ks := by
    intro hu hne
    have hend : AtDelimiter (d :: more) :=
      atDelimiter_cons.2 (by rcases hd with rfl | rfl <;> decide)
    obtain ⟨ks', he, hs⟩ := (spells_append_iff (.of_unescaped hu hne) (.inl hend)).1 hs
    obtain ⟨hw, rfl⟩ := List.cons.inj he
    exact ⟨Symbol.word.inj hw, hs⟩
  cases h with
  | path rest =>
    rw [Param.renderChars, String.toList_ofList] at hs
    obtain ⟨hu, hs⟩ := unescaped_of_spells hs (.inr hd)
    rw [Param.Verbatim, String.toList_ofList]
    exact ⟨hu, hs⟩
  | @decimal w x hn h =>
    cases x with
    | finite y =>
      have hv : (Param.decimal (.finite y)).Verbatim := ⟨y, rfl⟩
      obtain ⟨hrender, hu⟩ := (LiteralText.decimal hn h).render hv
      exact ⟨hv, (hplain hu hrender.ne_nil).2⟩
    | infinite negative =>
      cases negative with
      | true =>
        obtain ⟨rfl, -⟩ := hplain (.of_plain (by decide)) (by decide)
        exact absurd h (by decide)
      | false =>
        obtain ⟨rfl, -⟩ := hplain (.of_plain (by decide)) (by decide)
        exact absurd h (by decide)
    | notANumber =>
      obtain ⟨rfl, -⟩ := hplain (.of_plain (by decide)) (by decide)
      exact absurd h (by decide)
  | int h =>
    obtain ⟨hrender, hu⟩ := (LiteralText.int h).render trivial
    exact ⟨trivial, (hplain hu hrender.ne_nil).2⟩
  | null => exact ⟨trivial, (hplain (.of_plain (by decide)) (by decide)).2⟩
  | true => exact ⟨trivial, (hplain (.of_plain (by decide)) (by decide)).2⟩
  | false => exact ⟨trivial, (hplain (.of_plain (by decide)) (by decide)).2⟩

theorem spells_behind {cs more : List Char} {k : Symbol} {ks : List Symbol} (h : Spells cs [k])
    (hk : ∀ w, k ≠ .word w) (hall : Spells (cs ++ more) (k :: ks)) : Spells more ks := by
  have hlast : ∀ w, [k].getLast? ≠ some (.word w) := fun w hw => hk w (Option.some.inj hw)
  obtain ⟨ks', he, hs⟩ := (spells_append_iff h (.inr hlast)).1 hall
  obtain ⟨-, rfl⟩ := List.cons.inj he
  exact hs

theorem spells_opening {more : List Char} {ks : List Symbol}
    (h : Spells ('(' :: more) (.opening :: ks)) : Spells more ks :=
  spells_behind (.opening .nil) nofun h

theorem spells_closing {more : List Char} {ks : List Symbol}
    (h : Spells (')' :: more) (.closing :: ks)) : Spells more ks :=
  spells_behind (.closing .nil) nofun h

mutual

theorem CallText.verbatim {ks ks' : List Symbol} {c : Call} (h : CallText ks c) {more : List Char}
    (hs : Spells (c.renderChars ++ more) (ks ++ ks')) : c.Verbatim ∧ Spells more ks' := by
  cases h with
  | bare name =>
    rw [renderChars, String.toList_ofList, renderParams, List.append_assoc, List.append_assoc] at hs
    obtain ⟨hname, hs⟩ := unescaped_of_spells hs (.inl rfl)
    rw [Verbatim, String.toList_ofList]
    exact ⟨⟨hname, trivial⟩, spells_closing (spells_opening hs)⟩
  | @applied name ks ps h =>
    simp only [renderChars, String.toList_ofList, List.append_assoc, List.cons_append,
      List.nil_append] at hs
    obtain ⟨hname, hs⟩ := unescaped_of_spells hs (.inl rfl)
    obtain ⟨hv, hs⟩ := h.verbatim (spells_opening hs)
    rw [Verbatim, String.toList_ofList]
    exact ⟨⟨hname, hv⟩, spells_closing hs⟩

theorem ParamsText.verbatim {ks ks' : List Symbol} {ps : List Param} (h : ParamsText ks ps)
    {more : List Char} (hs : Spells (renderParams ps ++ ')' :: more) (ks ++ ks')) :
    ParamsVerbatim ps ∧ Spells (')' :: more) ks' := by
  cases h with
  | one h =>
    rw [renderParams, renderOtherParams, List.append_nil] at hs
    obtain ⟨hv, hs⟩ := h.verbatim (.inr rfl) hs
    exact ⟨⟨hv, trivial⟩, hs⟩
  | @more ks p ks₂ ps h hps =>
    obtain ⟨q, ps, rfl⟩ := hps.exists_cons
    rw [renderParams_cons, List.append_assoc, List.append_assoc] at hs
    obtain ⟨hv, hs⟩ := h.verbatim (.inl rfl) hs
    have hseparator : Spells [',', ' '] [.comma] := .comma (.blank (by decide) .nil)
    obtain ⟨hvs, hs⟩ := hps.verbatim (spells_behind hseparator nofun hs)
    exact ⟨⟨hv, hvs⟩, hs⟩

theorem ParamText.verbatim {ks ks' : List Symbol} {p : Param} (h : ParamText ks p)
    {more : List Char} {d : Char} (hd : d = ',' ∨ d = ')')
    (hs : Spells (p.renderChars ++ d :: more) (ks ++ ks')) :
    p.Verbatim ∧ Spells (d :: more) ks' := by
  cases h with
  | text s =>
    have hquote := spells_quote (String.ofList s)
    rw [String.toList_ofList] at hquote
    exact ⟨trivial, spells_behind hquote nofun hs⟩
  | literal h => exact h.verbatim hd hs
  | call h =>
    obtain ⟨hv, hs⟩ := h.verbatim hs
    exact ⟨hv, hs⟩

end

/-- **A call that was read is read again from its text exactly if it is verbatim.** -/
theorem reads_back_iff {limit : Nat} {text : String} {c : Call} (h : parse limit text = .ok c) :
    parse limit c.render = .ok c ↔ c.Verbatim := by
  obtain ⟨⟨ks, hs, hc⟩, hlimit⟩ := parse_eq_ok.1 h
  rw [parse_eq_ok, render, String.toList_ofList]
  constructor
  · rintro ⟨⟨ks', hs', hc'⟩, -⟩
    rw [← List.append_nil c.renderChars, ← List.append_nil ks'] at hs'
    exact (hc'.verbatim hs').1
  · intro hv
    obtain ⟨ks', hc', hs'⟩ := hc.spelled hs.wordsNonempty hv
    exact ⟨⟨ks', hs', hc'⟩, hlimit⟩

/-- Quoted texts are escaped again, and brackets need no escape. -/
theorem reads_back_quoted :
    ∃ c, parse defaultNesting "F( 'it\\'s',$[' '])" = .ok c ∧
      parse defaultNesting c.render = .ok c := by
  have h : parse defaultNesting "F( 'it\\'s',$[' '])" =
      .ok ⟨"F", [.string "it's", .path "$[' ']"]⟩ := by cbv
  have hname : InQuotes '\'' [' '] := .plain (by decide) (by decide) .nil
  have hpath : Unescaped "$[' ']".toList :=
    .plain (by decide) (by decide) (.brackets (.quoted (.inl rfl) hname .nil) .nil)
  exact ⟨_, h, (reads_back_iff h).2 ⟨.of_plain (by decide), trivial, hpath, trivial⟩⟩

/-- Escapes of names and of paths are not restored, and an infinite decimal has no text that is
read. -/
theorem not_read_back :
    (∃ c, parse defaultNesting "My\\(Fn\\)(1)" = .ok c ∧
        parse defaultNesting c.render = .error (.unrecognized "Fn" 3)) ∧
      (∃ c, parse defaultNesting "F($.a\\ b)" = .ok c ∧
        parse defaultNesting c.render = .error (.unexpected 'b' 6)) ∧
      ∃ c, parse defaultNesting "F(1e999)" = .ok c ∧
        parse defaultNesting c.render = .error (.unrecognized "inf" 2) := by
  refine ⟨⟨⟨"My(Fn)", [.int 1]⟩, ?_, ?_⟩, ⟨⟨"F", [.path "$.a b"]⟩, ?_, ?_⟩,
    ⟨"F", [.decimal (.infinite false)]⟩, ?_, ?_⟩
  all_goals cbv

end StatesLang.Call
